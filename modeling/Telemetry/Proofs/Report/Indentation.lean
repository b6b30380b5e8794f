import Mathlib.Algebra.BigOperators.Group.List.Basic
import Mathlib.Algebra.Ring.Int.Defs
import Telemetry.Proofs.Decode.Brackets
import Telemetry.Report.Text

namespace Telemetry

def Event.bracket : Event → Int
  | .groupStart _ | .arrayStart .. | .indexStart _ => 1
  | .groupEnd _ | .indexEnd _ | .arrayEnd _ => -1
  | .value .. | .line .. | .address .. => 0

namespace Report

open Decode (Phrase Phrases Composable underLabel arraysOf phrases_field phrase_field
  decode_of_build)
open Layout (Series frame frameData build_frameArena)

def openBrackets (events : List Event) : Int := (events.map Event.bracket).sum

@[simp] theorem openBrackets_nil : openBrackets [] = 0 := rfl

@[simp] theorem openBrackets_cons (e : Event) (events : List Event) :
    openBrackets (e :: events) = e.bracket + openBrackets events := List.sum_cons

@[simp] theorem openBrackets_append (as bs : List Event) :
    openBrackets (as ++ bs) = openBrackets as + openBrackets bs := by
  simp only [openBrackets, List.map_append, List.sum_append]

/-- No bracket is closed before it is opened, and none is left open. -/
structure Balanced (events : List Event) : Prop where
  above : ∀ n, 0 ≤ openBrackets (events.take n)
  settled : openBrackets events = 0

theorem composable_balanced : Composable Balanced where
  nil := ⟨fun n => by simp, rfl⟩
  append := by
    intro as bs ha hb
    constructor
    · intro n
      have h := ha.above n
      have h' := hb.above (n - as.length)
      rw [List.take_append, openBrackets_append]
      omega
    · rw [openBrackets_append, ha.settled, hb.settled, Int.add_zero]

theorem balanced_single {e : Event} (h : e.bracket = 0) : Balanced [e] := by
  constructor
  · intro n
    cases n <;> simp [h]
  · simp [h]

theorem Balanced.between {events : List Event} (h : Balanced events) {opening closing : Event}
    (ho : opening.bracket = 1) (hc : closing.bracket = -1) :
    Balanced (opening :: events ++ [closing]) := by
  constructor
  · intro n
    cases n with
    | zero => simp
    | succ n =>
      have hn := h.above n
      rw [List.cons_append, List.take_succ_cons, openBrackets_cons, List.take_append,
        openBrackets_append, ho]
      -- at worst the last bracket is closed
      have hlast : -1 ≤ openBrackets ([closing].take (n - events.length)) := by
        cases n - events.length <;> simp [hc]
      omega
  · simp [h.settled, ho, hc]

theorem balanced_underLabel {events : List Event} (h : Balanced events) (s : Series)
    (index : Nat) : Balanced (underLabel s events index) := h.between rfl rfl

theorem balanced_of_phrase {known : Series → Prop} {events : List Event}
    (h : Phrase known events) : Balanced events := by
  induction h with
  | value name v unit => exact balanced_single rfl
  | line offset text => exact balanced_single rfl
  | address offset text => exact balanced_single rfl
  | group name _ ih => exact (composable_balanced.flatten ih).between rfl rfl
  | repeated hs hp h hc ih =>
    refine Balanced.between (composable_balanced.flatMap ?_) rfl rfl
    intro g hg
    have hm := List.fst_mem_of_mem_zipIdx hg
    exact balanced_underLabel (composable_balanced.flatten (ih g.1 hm)) _ g.2
  | formatted hs hp count _ ih => exact (composable_balanced.flatten ih).between rfl rfl

theorem balanced_of_phrases {known : Series → Prop} {events : List Event}
    (h : Phrases known events) : Balanced events := by
  obtain ⟨parts, hp, rfl⟩ := h
  exact composable_balanced.flatten fun p hm => balanced_of_phrase (hp p hm)

def depth (events : List Event) : Nat := events.foldl depthAfter 0

theorem depthAfter_eq {n : Nat} {e : Event} (h : 0 ≤ n + e.bracket) :
    (depthAfter n e : Int) = n + e.bracket := by
  cases e <;> simp only [depthAfter, Event.bracket] at h ⊢ <;> omega

theorem depth_take {events : List Event} (h : Balanced events) (n : Nat) :
    (depth (events.take n) : Int) = openBrackets (events.take n) := by
  induction n with
  | zero => rfl
  | succ n ih =>
    have hn := h.above (n + 1)
    rw [List.take_add_one] at hn ⊢
    cases he : events[n]? with
    | none => simpa [he] using ih
    | some e =>
      rw [he, Option.toList_some, openBrackets_append, openBrackets_cons, openBrackets_nil,
        Int.add_zero, ← ih] at hn
      rw [Option.toList_some, openBrackets_append, openBrackets_cons, openBrackets_nil,
        Int.add_zero, ← ih, ← depthAfter_eq hn, depth, List.foldl_append]
      rfl

theorem depth_eq_zero {events : List Event} (h : Balanced events) : depth events = 0 := by
  have hd := depth_take h events.length
  rw [List.take_length, h.settled] at hd
  omega

def indented (events : List Event) : List String :=
  (List.range events.length).filterMap fun i =>
    events[i]?.bind fun e => (lineText e).map fun text =>
      String.ofList (List.replicate (2 * (openBrackets (events.take i)).toNat) ' ') ++ text

theorem linesFrom_eq (n : Nat) (events : List Event) :
    linesFrom n events = (List.range events.length).filterMap fun i =>
      events[i]?.bind fun e => (lineText e).map fun text =>
        String.ofList (List.replicate (2 * (events.take i).foldl depthAfter n) ' ') ++ text := by
  induction events generalizing n with
  | nil => rfl
  | cons e events ih =>
    rw [linesFrom, ih, List.length_cons, List.range_succ_eq_map, List.filterMap_cons,
      List.filterMap_map]
    simp only [List.getElem?_cons_zero, Option.bind_some, List.take_zero, List.foldl_nil]
    cases lineText e <;> rfl

theorem linesFrom_eq_indented {events : List Event} (h : Balanced events) :
    linesFrom 0 events = indented events := by
  rw [linesFrom_eq, indented]
  apply List.filterMap_congr
  intro i _
  have hd := depth_take h i
  rw [depth] at hd
  rw [← hd, Int.toNat_natCast]

/-- What a decode shows is a sequence of phrases, and one phrase if the root is a structure that
brackets its children. Its report is as deep as brackets are open, all along and so at its end. -/
theorem decode_phrases {arena : Layout.Arena} {root : Nat} {l : Layout}
    (hb : Layout.build arena root = .ok l) (o : Decode.Options) (data : List UInt8) :
    ∃ d, l.decode o data = .ok d ∧ Phrases (arraysOf l.root) d.events ∧
      (∀ id g children, l.root = .group id g children → g.printFormat = none →
        Phrase (arraysOf l.root) d.events) ∧
      (∀ n, (depth (d.events.take n) : Int) = openBrackets (d.events.take n)) ∧
      depth d.events = 0 ∧ linesFrom 0 d.events = indented d.events := by
  have hphrases := phrases_field o l.root (.start data)
  have hbalanced := balanced_of_phrases hphrases
  exact ⟨_, decode_of_build hb o data, hphrases, fun _ _ _ hr hg => phrase_field hr hg o _,
    depth_take hbalanced, depth_eq_zero hbalanced, linesFrom_eq_indented hbalanced⟩

theorem decode_frame_phrases :
    ∃ d, frame.decode {} (frameData.take 6) = .ok d ∧ Phrases (arraysOf frame.root) d.events ∧
      depth d.events = 0 := by
  obtain ⟨d, hd, hphrases, -, -, hdepth, -⟩ :=
    decode_phrases build_frameArena {} (frameData.take 6)
  exact ⟨d, hd, hphrases, hdepth⟩

end Report
end Telemetry
