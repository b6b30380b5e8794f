import Mathlib.Data.List.Duplicate
import Mathlib.Data.List.Perm.Subperm
import Mathlib.Logic.Relation
import Telemetry.Proofs.Layout.Growth

/-!
Measuring in an arena whose fields may name any children. It fails exactly where it leaves the
arena or comes back to a field that it is measuring, and there it has passed a field that names a
child out of order.
-/

namespace Telemetry.Layout

open Relation (ReflTransGen TransGen)

namespace Entry

def parts : Entry → List Nat
  | group _ children => children
  | array s elements =>
    match s.length with
    | .fixed _ => elements
    | _ => []
  | scalar _ | bit _ | bitArray .. | stream _ => []

def total : Entry → Option Nat → Option Nat
  | scalar s, _ => if s.lengthBytes.isSome then none else s.dataType.byteLen
  | bitArray w _, _ => some w.byteLen
  | group .., sum => sum
  | array s _, sum =>
    match s.length with
    | .fixed count => sum.map (· * count)
    | _ => none
  | bit _, _ | stream _, _ => none

theorem mem_children_of_mem_parts {entry : Entry} {c : Nat} (h : c ∈ entry.parts) :
    c ∈ entry.children := by
  cases entry with
  | group g cs => exact h
  | array s cs =>
    simp only [parts] at h
    split at h
    next => exact h
    next => cases h
  | scalar s | bit b | bitArray w cs | stream s => cases h

end Entry

variable {arena : Arena} {id c m limit : Nat} {entry : Entry}

theorem sizeIn_succ (h : arena[id]? = some entry) (limit : Nat) :
    sizeIn arena (limit + 1) id = (sumSizes (sizeIn arena limit) entry.parts).map entry.total := by
  rw [sizeIn, h]
  cases entry with
  | group g cs =>
    simp only [Entry.parts]
    cases sumSizes (sizeIn arena limit) cs <;> rfl
  | array s cs =>
    simp only [Entry.parts]
    cases hl : s.length with
    | fixed count =>
      cases sumSizes (sizeIn arena limit) cs with
      | error x => rfl
      | ok sum => simp only [Except.map, Entry.total, hl]
    | inData width inBytes | ofField id | untilExhausted =>
      simp only [sumSizes, Except.map, Entry.total, hl]
  | scalar s | bit b | bitArray w cs | stream s => rfl

section

variable {size size' : Nat → Except Nat (Option Nat)} {cs before after : List Nat} {x : Nat}
  {sum : Option Nat}

theorem exists_unmeasured (h : sumSizes size cs = .error x) : ∃ before c after,
    cs = before ++ c :: after ∧ (∀ b ∈ before, ∃ n, size b = .ok (some n)) ∧
      size c = .error x := by
  induction cs with
  | nil => cases h
  | cons c cs ih =>
    rw [sumSizes] at h
    split at h
    next y hc =>
      cases h
      exact ⟨[], c, cs, rfl, List.forall_mem_nil _, hc⟩
    next => cases h
    next n hc =>
      obtain ⟨before, d, after, rfl, hbefore, hd⟩ := ih (error_of_map h)
      exact ⟨c :: before, d, after, rfl, List.forall_mem_cons.mpr ⟨⟨n, hc⟩, hbefore⟩, hd⟩

theorem exists_measured (h : sumSizes size (before ++ c :: after) = .ok sum)
    (hbefore : ∀ b ∈ before, ∀ w, size b = .ok w → ∃ n, w = some n) :
    ∃ w, size c = .ok w := by
  induction before generalizing sum with
  | nil =>
    rw [List.nil_append, sumSizes] at h
    split at h
    next => cases h
    next hc => exact ⟨_, hc⟩
    next hc => exact ⟨_, hc⟩
  | cons b before ih =>
    rw [List.cons_append, sumSizes] at h
    split at h
    next => cases h
    next hb =>
      obtain ⟨n, hn⟩ := hbefore b List.mem_cons_self _ hb
      cases hn
    next =>
      obtain ⟨rest, hrest, -⟩ := exists_ok_of_map h
      exact ih hrest fun b hb => hbefore b (List.mem_cons_of_mem _ hb)

theorem sumSizes_mono (hsize : ∀ c ∈ cs, ∀ w, size c = .ok w → size' c = .ok w)
    (h : sumSizes size cs = .ok sum) : sumSizes size' cs = .ok sum := by
  induction cs generalizing sum with
  | nil => exact h
  | cons c cs ih =>
    rw [sumSizes] at h
    split at h
    next => cases h
    next hc => rwa [sumSizes, hsize c List.mem_cons_self _ hc]
    next hc =>
      obtain ⟨rest, hrest, rfl⟩ := exists_ok_of_map h
      rw [sumSizes, hsize c List.mem_cons_self _ hc]
      simp only [ih (fun d hd => hsize d (List.mem_cons_of_mem _ hd)) hrest]
      rfl

end

theorem sizeIn_mono {limit' : Nat} {w : Option Nat} (h : sizeIn arena limit id = .ok w)
    (hle : limit ≤ limit') : sizeIn arena limit' id = .ok w := by
  induction limit generalizing limit' id w with
  | zero => cases h
  | succ limit ih =>
    obtain ⟨limit', rfl⟩ := Nat.exists_eq_add_of_le' (Nat.le_trans (Nat.le_add_left 1 limit) hle)
    cases he : arena[id]? with
    | none =>
      rw [sizeIn, he] at h
      cases h
    | some entry =>
      rw [sizeIn_succ he] at h ⊢
      obtain ⟨sum, hsum, rfl⟩ := exists_ok_of_map h
      rw [sumSizes_mono (fun c _ w hc => ih hc (by omega)) hsum]
      rfl

theorem sizeIn_unique {limit' : Nat} {w w' : Option Nat} (h : sizeIn arena limit id = .ok w)
    (h' : sizeIn arena limit' id = .ok w') : w = w' := by
  rcases Nat.le_total limit limit' with hle | hle
  · exact Except.ok.inj ((sizeIn_mono h hle).symm.trans h')
  · exact Except.ok.inj (h.symm.trans (sizeIn_mono h' hle))

/-- Measuring `id` comes to measure `c`: the parts before `c` have a size of their own. -/
inductive Asks (arena : Arena) (id c : Nat) : Prop where
  | intro {entry : Entry} {before after : List Nat} (at_id : arena[id]? = some entry)
      (parts : entry.parts = before ++ c :: after)
      (sized : ∀ b ∈ before, ∃ limit n, sizeIn arena limit b = .ok (some n)) : Asks arena id c

/-- Measuring `id` leaves the arena, or comes back to a field that is being measured. -/
def Stuck (arena : Arena) (id : Nat) : Prop :=
  ∃ m, ReflTransGen (Asks arena) id m ∧ (arena[m]? = none ∨ TransGen (Asks arena) m m)

theorem measured_of_asks {w : Option Nat} (ha : Asks arena id c)
    (h : sizeIn arena limit id = .ok w) : ∃ l < limit, ∃ w, sizeIn arena l c = .ok w := by
  obtain ⟨at_id, parts, sized⟩ := ha
  cases limit with
  | zero => cases h
  | succ limit =>
    rw [sizeIn_succ at_id, parts] at h
    obtain ⟨sum, hsum, -⟩ := exists_ok_of_map h
    refine ⟨limit, Nat.lt_succ_self _, exists_measured hsum ?_⟩
    intro b hb w hw
    obtain ⟨l, n, hn⟩ := sized b hb
    exact ⟨n, sizeIn_unique hw hn⟩

theorem measured_of_asked {w : Option Nat} (ha : ReflTransGen (Asks arena) id m)
    (h : sizeIn arena limit id = .ok w) : ∃ l ≤ limit, ∃ w, sizeIn arena l m = .ok w := by
  induction ha with
  | refl => exact ⟨limit, Nat.le_refl _, w, h⟩
  | tail _ hlast ih =>
    obtain ⟨l, hl, w, hw⟩ := ih
    obtain ⟨l', hl', hm⟩ := measured_of_asks hlast hw
    exact ⟨l', by omega, hm⟩

theorem not_measured_from_itself (ha : TransGen (Asks arena) m m) {w : Option Nat} :
    sizeIn arena limit m ≠ .ok w := by
  induction limit using Nat.strongRecOn generalizing w with
  | ind limit ih =>
    intro h
    -- one turn of the cycle ends with the same field and a smaller limit
    obtain ⟨c, hc, hm⟩ := Relation.TransGen.head'_iff.mp ha
    obtain ⟨l, hl, w', hw'⟩ := measured_of_asks hc h
    obtain ⟨l', hl', w'', hw''⟩ := measured_of_asked hm hw'
    exact ih l' (by omega) hw''

theorem not_measured_of_stuck (hs : Stuck arena id) (limit : Nat) {w : Option Nat} :
    sizeIn arena limit id ≠ .ok w := by
  intro h
  obtain ⟨m, ha, hm⟩ := hs
  obtain ⟨l, -, w', hw'⟩ := measured_of_asked ha h
  rcases hm with hnone | hcycle
  · cases l with
    | zero => cases hw'
    | succ l =>
      rw [sizeIn, hnone] at hw'
      cases hw'
  · exact not_measured_from_itself hcycle hw'

theorem exists_chain {x : Nat} (h : sizeIn arena limit id = .error x) :
    Stuck arena id ∨ ∃ path, path.length = limit ∧ List.IsChain (Asks arena) (id :: path) := by
  induction limit generalizing id x with
  | zero => exact .inr ⟨[], rfl, .singleton id⟩
  | succ limit ih =>
    cases he : arena[id]? with
    | none => exact .inl ⟨id, .refl, .inl he⟩
    | some entry =>
      rw [sizeIn_succ he] at h
      obtain ⟨before, c, after, hparts, hsized, hc⟩ := exists_unmeasured (error_of_map h)
      have ha : Asks arena id c := .intro he hparts fun b hb => ⟨limit, hsized b hb⟩
      rcases ih hc with ⟨m, hcm, hm⟩ | ⟨path, hlength, hpath⟩
      · exact .inl ⟨m, .head ha hcm, hm⟩
      · exact .inr ⟨c :: path, by rw [List.length_cons, hlength], .cons_cons ha hpath⟩

theorem exists_repeated {l : List Nat} {n : Nat} (hl : ∀ m ∈ l, m < n) (hn : n < l.length) :
    ∃ m, [m, m].Sublist l := by
  by_contra hno
  have hnodup : l.Nodup := List.nodup_iff_sublist.mpr fun m hm => hno ⟨m, hm⟩
  have hsub : l ⊆ List.range n := fun m hm => List.mem_range.mpr (hl m hm)
  have hle := (List.subperm_of_subset hnodup hsub).length_le
  rw [List.length_range] at hle
  omega

theorem stuck_of_error {x : Nat} (h : sizeIn arena arena.size id = .error x) :
    Stuck arena id := by
  rcases exists_chain h with hs | ⟨path, hlength, hpath⟩
  · exact hs
  -- the arena has fewer fields than the path, so that one of them is measured twice
  have hpairs : (id :: path).Pairwise (TransGen (Asks arena)) :=
    (hpath.imp fun _ _ => TransGen.single).pairwise
  have hreached : ∀ m ∈ id :: path, ReflTransGen (Asks arena) id m := by
    intro m hm
    rcases List.mem_cons.mp hm with rfl | hm
    · exact .refl
    · exact ((List.pairwise_cons.mp hpairs).1 m hm).to_reflTransGen
  by_cases hin : ∀ m ∈ id :: path, m < arena.size
  · have hlong : arena.size < (id :: path).length := by
      rw [List.length_cons, hlength]
      exact Nat.lt_succ_self _
    obtain ⟨m, hm⟩ := exists_repeated hin hlong
    have hcycle := List.pairwise_cons.mp (hpairs.sublist hm)
    exact ⟨m, hreached m (hm.subset List.mem_cons_self), .inr (hcycle.1 m List.mem_cons_self)⟩
  · obtain ⟨m, hm, hsize⟩ : ∃ m ∈ id :: path, arena.size ≤ m := by
      by_contra hno
      exact hin fun m hm => Nat.lt_of_not_le fun hle => hno ⟨m, hm, hle⟩
    exact ⟨m, hreached m hm, .inl (Array.getElem?_eq_none hsize)⟩

theorem exists_error_iff_stuck :
    (∃ x, sizeIn arena arena.size id = .error x) ↔ Stuck arena id := by
  constructor
  · rintro ⟨x, h⟩
    exact stuck_of_error h
  · intro hs
    cases h : sizeIn arena arena.size id with
    | error x => exact ⟨x, rfl⟩
    | ok w => exact absurd h (not_measured_of_stuck hs _)

def Late (arena : Arena) (id : Nat) : Prop :=
  ∃ entry c, arena[id]? = some entry ∧ c ∈ entry.children ∧ id ≤ c

theorem lt_of_asks (ha : Asks arena id c) (hid : ¬ Late arena id) : c < id := by
  obtain ⟨at_id, parts, -⟩ := ha
  by_contra hle
  have hc : c ∈ _ := Entry.mem_children_of_mem_parts (by rw [parts]; simp)
  exact hid ⟨_, c, at_id, hc, by omega⟩

theorem le_of_asked (ha : ReflTransGen (Asks arena) id m)
    (h : ∀ m, ReflTransGen (Asks arena) id m → ¬ Late arena m) : m ≤ id := by
  induction ha with
  | refl => exact Nat.le_refl _
  | @tail k m hk hm ih =>
    have := lt_of_asks hm (h k hk)
    omega

theorem exists_late_of_stuck (hid : id < arena.size) (hs : Stuck arena id) :
    ∃ m, ReflTransGen (Asks arena) id m ∧ Late arena m := by
  by_contra hnone
  have hno : ∀ m, ReflTransGen (Asks arena) id m → ¬ Late arena m :=
    fun m ha hl => hnone ⟨m, ha, hl⟩
  obtain ⟨m, ha, hm⟩ := hs
  have hle := le_of_asked ha hno
  rcases hm with hm | hcycle
  · have := Array.getElem?_eq_none_iff.mp hm
    omega
  · obtain ⟨c, hc, hcm⟩ := Relation.TransGen.head'_iff.mp hcycle
    have hlt := lt_of_asks hc (hno m ha)
    have hback := le_of_asked hcm fun k hk => hno k ((ha.tail hc).trans hk)
    omega

end Telemetry.Layout
