import Telemetry.Proofs.Decode.Composition
import Telemetry.Proofs.Layout.Checks

/-!
What a decode tells. A property of single items holds of all that a step tells if it holds of all
that its parts tell; lines of a print format are the only items that no part has told. A property
that holds of events, handoffs and notices holds of a whole field if it holds of what its scalars
tell.
-/

namespace Telemetry.Decode

open Layout (Arena BitField Field Group Grown Kind Scalar Series Stream Window totalBits)

variable {α : Type} {p : α → Prop}

def Step.Tells (p : α → Prop) (step : Step α) : Prop := ∀ s, ∀ a ∈ (step s).items, p a

theorem composable_forall (p : α → Prop) : Composable fun items => ∀ a ∈ items, p a where
  nil := List.forall_mem_nil p
  append hx hy := List.forall_mem_append.mpr ⟨hx, hy⟩

namespace Step

theorem Tells.between {a : Step α} (ha : a.Tells p) {opening closing : List α}
    (ho : ∀ x ∈ opening, p x) (hc : ∀ x ∈ closing, p x) :
    ((tell opening).andThen (a.andThen (tell closing))).Tells p :=
  Gives.between (composable_forall p) ha ho hc

theorem tells_sequence {steps : List (Step α)} (h : ∀ a ∈ steps, a.Tells p) :
    (sequence steps).Tells p := gives_sequence (composable_forall p) h

theorem tells_whileData {cut : Nat → α} {steps : List (Step α)} (hc : ∀ n, p (cut n))
    (h : ∀ a ∈ steps, a.Tells p) : (whileData cut steps).Tells p :=
  gives_whileData (composable_forall p) (fun n => List.forall_mem_singleton.mpr (hc n)) h

end Step

theorem Laps.tells_run {lap : Nat → Step α} (h : ∀ index, (lap index).Tells p)
    (count : Option Nat) (s : State) : ∀ a ∈ (run lap count s).runs.flatten, p a :=
  gives_run (composable_forall p) h count s

theorem mem_gatherLines {f : PrintFormat} {offset : Nat} {values : List Value}
    {pieces : List Piece} {i : Item} (h : i ∈ gatherLines f offset values pieces) :
    (∃ at_ text, i = .event (.line at_ text)) ∨ .item i ∈ pieces := by
  fun_induction gatherLines f offset values pieces with
  | case1 offset values =>
    unfold lastLine at h
    split at h
    next => cases h
    next => exact .inl ⟨_, _, List.mem_singleton.mp h⟩
  | case2 offset values j rest ih =>
    rcases List.mem_cons.mp h with rfl | h
    · exact .inr List.mem_cons_self
    · exact (ih h).imp_right (List.mem_cons_of_mem _)
  | case3 offset values o v rest first line hfull ih =>
    rcases List.mem_cons.mp h with rfl | h
    · exact .inl ⟨_, _, rfl⟩
    · exact (ih h).imp_right (List.mem_cons_of_mem _)
  | case4 offset values o v rest first line hfull ih =>
    exact (ih h).imp_right (List.mem_cons_of_mem _)

def Piece.Satisfies (p : Item → Prop) : Piece → Prop
  | .item i => p i
  | .sample .. => True

theorem satisfies_lines {p : Item → Prop} (hl : ∀ offset text, p (.event (.line offset text)))
    {pieces : List Piece} (h : ∀ a ∈ pieces, a.Satisfies p) (f : PrintFormat) :
    ∀ i ∈ lines f pieces, p i := by
  intro i hi
  rcases mem_gatherLines hi with ⟨offset, text, rfl⟩ | hi
  · exact hl offset text
  · exact h _ hi

theorem Step.Tells.lines {p : Item → Prop} (hl : ∀ offset text, p (.event (.line offset text)))
    {step : Step Piece} (h : step.Tells (Piece.Satisfies p)) (f : PrintFormat) :
    (step.mapItems (lines f)).Tells p := fun s =>
  satisfies_lines hl (h s) f

theorem Step.Tells.pieces {p : Item → Prop} {step : Step Item} (h : step.Tells p) :
    (step.mapItems (·.map Piece.item)).Tells (Piece.Satisfies p) := by
  intro s a ha
  obtain ⟨i, hi, rfl⟩ := List.mem_map.mp ha
  exact h s i hi

structure TellsField (p : Item → Prop) (o : Options) (f : Field) : Prop where
  plain : (field o f).Tells p
  gathered : ∀ resolved, (gathered o resolved f).Tells (Piece.Satisfies p)

theorem TellsField.of_plain {p : Item → Prop} {o : Options} {f : Field} (h : (field o f).Tells p)
    (hg : ∀ resolved, Decode.gathered o resolved f = (field o f).mapItems (·.map Piece.item)) :
    TellsField p o f :=
  ⟨h, fun resolved => hg resolved ▸ h.pieces⟩

/-- Holds of all that is told around the values of scalars. A bit field outside its window is left
open, as it is told of only where the checks of a build have failed. -/
structure Pervasive (p : Item → Prop) : Prop where
  event : ∀ e, p (.event e)
  handoff : ∀ h, p (.handoff h)
  notice : ∀ n, (∀ name offset, n ≠ .noBits name offset) → p (.notice n)

namespace Pervasive

variable {p : Item → Prop} (hp : Pervasive p) (o : Options)
include hp

theorem event_singleton (e : Event) : ∀ i ∈ [Item.event e], p i :=
  List.forall_mem_singleton.mpr (hp.event e)

theorem holds_complaint (name : String) (dn : Value) (r : Resolution) :
    ∀ n ∈ complaint name dn r, p (.notice n) := by
  cases r with
  | failed e => exact List.forall_mem_singleton.mpr (hp.notice _ nofun)
  | _ => exact List.forall_mem_nil _

theorem holds_shown (name : String) (attrs : Attributes) (dn : Value) :
    ∀ i ∈ shown o name attrs dn, p i :=
  List.forall_mem_append.mpr ⟨List.forall_mem_map.mpr (hp.holds_complaint name dn _),
    hp.event_singleton _⟩

theorem holds_sampled (resolved : Bool) (offset : Nat) (name : String) (attrs : Attributes)
    (dn : Value) : ∀ a ∈ sampled o resolved offset name attrs dn, a.Satisfies p := by
  cases resolved with
  | true =>
    exact List.forall_mem_append.mpr ⟨List.forall_mem_map.mpr (hp.holds_complaint name dn _),
      List.forall_mem_singleton.mpr trivial⟩
  | false => exact List.forall_mem_singleton.mpr trivial

theorem holds_extent {s : Scalar} {c : Bytes.Cursor} {e : Extent} (h : extent? s c = some e) :
    ∀ i ∈ e.notices.map Item.notice, p i := by
  unfold extent? at h
  split at h
  next => cases h; exact List.forall_mem_nil _
  next =>
    split at h
    next => cases h
    next =>
      split at h
      next => cases h; exact List.forall_mem_singleton.mpr (hp.notice _ nofun)
      next => cases h; exact List.forall_mem_nil _

theorem holds_readScalar {s : Scalar} {channels : Bool} {id : Nat}
    (h : s.isFill = false → ∀ bytes past, ∀ i ∈ (readLeaf channels id s bytes past).items, p i)
    (st : State) : ∀ i ∈ (readScalar channels id s st).items, p i := by
  unfold readScalar
  cases he : extent? s st.cursor with
  | none => exact List.forall_mem_singleton.mpr (hp.notice _ nofun)
  | some e =>
    have hn := hp.holds_extent he
    dsimp only
    split
    next =>
      refine List.forall_mem_append.mpr ⟨hn, ?_⟩
      split
      next => exact List.forall_mem_singleton.mpr (hp.notice _ nofun)
      next => exact List.forall_mem_nil _
    next hf =>
      rw [Bool.not_eq_true] at hf
      split
      next =>
        exact List.forall_mem_append.mpr
          ⟨hn, List.forall_mem_singleton.mpr (hp.notice _ nofun)⟩
      next bytes _ _ => exact List.forall_mem_append.mpr ⟨hn, h hf bytes _⟩

theorem tellsField_scalar {s : Scalar} {id : Nat}
    (h : s.isFill = false → ∀ bytes past, ∀ i ∈ (readLeaf o.channels id s bytes past).items, p i) :
    TellsField p o (.scalar id s) := by
  have hr := hp.holds_readScalar h
  constructor
  · intro st
    refine List.forall_mem_append.mpr ⟨hr st, ?_⟩
    cases (readScalar o.channels id s st).dn with
    | none => exact List.forall_mem_nil _
    | some dn => exact hp.holds_shown o s.name s.attrs dn
  · intro resolved st
    refine List.forall_mem_append.mpr ⟨List.forall_mem_map.mpr (hr st), ?_⟩
    cases (readScalar o.channels id s st).dn with
    | none => exact List.forall_mem_nil _
    | some dn => exact hp.holds_sampled o resolved _ s.name s.attrs dn

theorem tellsField_bitArray {w : Window} {children : List Field}
    (h : ∀ st, ∀ n ∈ (readBits w (children.filterMap Field.bit?) st).notices, p (.notice n))
    (id : Nat) : TellsField p o (.bitArray id w children) := by
  constructor
  · intro st
    refine List.forall_mem_append.mpr ⟨List.forall_mem_map.mpr (h st), ?_⟩
    exact List.forall_mem_flatMap.mpr fun b _ => hp.holds_shown o b.1.name b.1.attrs b.2
  · intro resolved st
    refine List.forall_mem_append.mpr ⟨List.forall_mem_map.mpr (h st), ?_⟩
    exact List.forall_mem_flatMap.mpr fun b _ => hp.holds_sampled o resolved _ b.1.name b.1.attrs b.2

variable {o}

theorem tells_group {children : List Field} (h : ∀ c ∈ children, TellsField p o c) (id : Nat)
    (g : Group) : (field o (.group id g children)).Tells p := by
  have hcut (skipped : Nat) : p (.notice (.structureCut g.name skipped)) := hp.notice _ nofun
  simp only [field, groupStep]
  split
  next =>
    have hc := forall_mem_fields fun c hc => (h c hc).plain
    exact (Step.tells_whileData hcut hc).between (hp.event_singleton _) (hp.event_singleton _)
  next format _ =>
    have hc := forall_mem_gathers fun c hc => (h c hc).gathered false
    refine .lines (fun _ _ => hp.event _) ?_ format
    exact Step.tells_whileData hcut hc

theorem holds_stopNotices (s : Series) (count : Option Nat) (laps : Nat) (stop : Stop) :
    ∀ n ∈ stopNotices s count laps stop, p (.notice n) := by
  cases stop with
  | complete => exact List.forall_mem_nil _
  | exhausted =>
    cases count with
    | none => exact List.forall_mem_nil _
    | some n => exact List.forall_mem_singleton.mpr (hp.notice _ nofun)
  | stalled => exact List.forall_mem_singleton.mpr (hp.notice _ nofun)

theorem tells_repetitions {elements : List Field} (h : ∀ c ∈ elements, TellsField p o c)
    (s : Series) (count : Option Nat) :
    Step.Tells p (repetitions o s elements (fields o elements) count) := by
  intro st
  unfold repetitions
  cases s.printFormat with
  | none =>
    have hc := forall_mem_fields fun c hc => (h c hc).plain
    have hlap (index : Nat) : (labelled s (fields o elements) index).Tells p :=
      (Step.tells_sequence hc).between (hp.event_singleton _) (hp.event_singleton _)
    exact List.forall_mem_append.mpr ⟨Laps.tells_run hlap count st,
      List.forall_mem_map.mpr (hp.holds_stopNotices s count _ _)⟩
  | some format =>
    have hc := forall_mem_gathers fun c hc => (h c hc).gathered (isUniform elements)
    have hlap := Step.tells_sequence hc
    refine satisfies_lines (fun _ _ => hp.event _) ?_ format
    exact List.forall_mem_append.mpr ⟨Laps.tells_run (fun _ => hlap) count st,
      List.forall_mem_map.mpr (List.forall_mem_map.mpr (hp.holds_stopNotices s count _ _))⟩

theorem holds_readCount (s : Series) (elements : List Field) (st : State) :
    ∀ n ∈ (readCount s elements st).notices, p (.notice n) := by
  unfold readCount
  split
  next => exact List.forall_mem_nil _
  next => exact List.forall_mem_nil _
  next =>
    split
    next => exact List.forall_mem_nil _
    next => exact List.forall_mem_singleton.mpr (hp.notice _ nofun)
  next =>
    split
    next => exact List.forall_mem_singleton.mpr (hp.notice _ nofun)
    next => exact List.forall_mem_nil _

theorem holds_shortNotices (s : Series) (size : Option Nat) (consumed : Nat) :
    ∀ n ∈ shortNotices s size consumed, p (.notice n) := by
  unfold shortNotices
  split
  next =>
    split
    next => exact List.forall_mem_singleton.mpr (hp.notice _ nofun)
    next => exact List.forall_mem_nil _
  next => exact List.forall_mem_nil _

theorem tells_array {elements : List Field} (h : ∀ c ∈ elements, TellsField p o c) (id : Nat)
    (s : Series) : (field o (.array id s elements)).Tells p := by
  intro st
  refine List.forall_mem_append.mpr ⟨List.forall_mem_map.mpr (hp.holds_readCount s elements st), ?_⟩
  cases (readCount s elements st).count with
  | none => exact List.forall_mem_nil _
  | some count =>
    simp only [elementsStep]
    split
    next => exact List.forall_mem_nil _
    next =>
      have hr := hp.tells_repetitions h s count (readCount s elements st).state
      exact List.forall_mem_append.mpr ⟨List.forall_mem_cons.mpr ⟨hp.event _, hr⟩,
        List.forall_mem_cons.mpr
          ⟨hp.event _, List.forall_mem_map.mpr (hp.holds_shortNotices s _ _)⟩⟩

theorem tells_stream (s : Stream) : (streamStep s).Tells p := by
  intro st
  refine List.forall_mem_append.mpr ⟨?_, ?_⟩
  · unfold displayed
    split
    next => exact List.forall_mem_nil _
    next => exact hp.event_singleton _
    next => exact List.forall_mem_map.mpr fun _ _ => hp.event _
  · split
    next => exact List.forall_mem_singleton.mpr (hp.handoff _)
    next => exact List.forall_mem_nil _

theorem tellsField
    (hs : ∀ s : Scalar, s.Checked → s.isFill = false → ∀ channels id bytes past,
      ∀ i ∈ (readLeaf channels id s bytes past).items, p i)
    (hb : ∀ (w : Window) (bits : List BitField), totalBits bits = w.bitLen →
      ∀ st, ∀ n ∈ (readBits w bits st).notices, p (.notice n))
    {arena : Arena} {parent : Option Kind} {f : Field} (h : Grown arena parent f)
    (hr : parent ≠ some .bitArray) : TellsField p o f := by
  induction f using Field.induction generalizing parent with
  | scalar id s =>
    exact hp.tellsField_scalar o fun hf => hs s h.checked_scalar hf o.channels id
  | bit id b => exact absurd h.checked_bit.1 hr
  | group id g children ih =>
    obtain ⟨-, -, -, hcs⟩ := h
    exact .of_plain (hp.tells_group (fun c hc => ih c hc (hcs c hc) nofun) id g) fun _ => rfl
  | array id s elements ih =>
    obtain ⟨-, -, -, hcs⟩ := h
    exact .of_plain (hp.tells_array (fun c hc => ih c hc (hcs c hc) nofun) id s) fun _ => rfl
  | bitArray id w children _ => exact hp.tellsField_bitArray o (hb w _ h.sum_bits) id
  | stream id s => exact .of_plain (hp.tells_stream s) fun _ => rfl

end Pervasive
end Telemetry.Decode
