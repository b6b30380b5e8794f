import Telemetry.Proofs.Layout.Measuring

/-!
What a build that is refused reports. Every refusal is the fault of one field that the root reaches
through children in order, and only an array counted in bytes can stop it without a report.
-/

namespace Telemetry.Layout

open Relation (ReflTransGen)

/-- The root reaches a field through children of smaller indices than their parents, the last of
which is of this kind. -/
inductive Reached (arena : Arena) (root : Nat) : Option Kind → Nat → Prop where
  | root : Reached arena root none root
  | child {parent : Option Kind} {id c : Nat} {entry : Entry} (h : Reached arena root parent id)
      (at_id : arena[id]? = some entry) (hc : c ∈ entry.children) (hlt : c < id) :
      Reached arena root (some entry.kind) c

inductive Fault (arena : Arena) (parent : Option Kind) (id : Nat) : Refusal → Prop where
  | missing (at_id : arena[id]? = none) : Fault arena parent id (.defect (.unknownChild "" id))
  | late {entry : Entry} {c : Nat} (at_id : arena[id]? = some entry) (hc : c ∈ entry.children)
      (hle : id ≤ c) : Fault arena parent id (.defect (.unknownChild entry.name c))
  | failed {entry : Entry} {r : Refusal} (at_id : arena[id]? = some entry)
      (below : ∀ c ∈ entry.children, c < id) (check : checkEntry arena parent entry = .error r) :
      Fault arena parent id r

/-- An array counted in bytes that gets stuck in the arena when it measures its elements. -/
inductive Overreaches (arena : Arena) (id : Nat) : Prop where
  | intro {s : Series} {elements before after : List Nat} {width e : Nat}
      (at_id : arena[id]? = some (.array s elements)) (below : ∀ c ∈ elements, c < id)
      (length : s.length = .inData width true)
      (readable : (DataType.unsignedBytes width).check s.name = .ok ())
      (split : elements = before ++ e :: after)
      (sized : ∀ b ∈ before, ∃ limit n, sizeIn arena limit b = .ok (some n))
      (stuck : Stuck arena e) : Overreaches arena id

variable {arena : Arena} {root id : Nat} {parent : Option Kind}

theorem exists_error_of_mapM {α β ε : Type} {f : α → Except ε β} {xs : List α} {e : ε}
    (h : xs.mapM f = .error e) : ∃ x ∈ xs, f x = .error e := by
  induction xs with
  | nil => cases h
  | cons x xs ih =>
    rw [List.mapM_cons] at h
    cases hx : f x with
    | error e' =>
      rw [hx] at h
      cases h
      exact ⟨x, List.mem_cons_self, hx⟩
    | ok y =>
      rw [hx] at h
      cases hxs : xs.mapM f with
      | error e' =>
        rw [hxs] at h
        cases h
        obtain ⟨z, hz, he⟩ := ih hxs
        exact ⟨z, List.mem_cons_of_mem x hz, he⟩
      | ok ys =>
        rw [hxs] at h
        cases h

theorem Reached.lt_size (h : Reached arena root parent id) (hroot : root < arena.size) :
    id < arena.size := by
  cases h with
  | root => exact hroot
  | child h at_id hc hlt => exact Nat.lt_trans hlt (Array.getElem?_eq_some_iff.mp at_id).1

theorem Reached.root_lt_size (h : Reached arena root parent id) (hid : id < arena.size) :
    root < arena.size := by
  induction h with
  | root => exact hid
  | child h at_id hc hlt ih => exact ih (Array.getElem?_eq_some_iff.mp at_id).1

theorem exists_fault_of_growBelow {bound : Nat} {r : Refusal}
    (h : growBelow arena bound parent id = .error r) (hid : id < bound)
    (hr : Reached arena root parent id) :
    ∃ parent id, Reached arena root parent id ∧ Fault arena parent id r := by
  -- children in order stand below the index, so the bound stays above it
  induction bound generalizing parent id with
  | zero => cases hid
  | succ bound ih =>
    rw [growBelow] at h
    split at h
    next hnone =>
      cases h
      exact ⟨parent, id, hr, .missing hnone⟩
    next entry at_id =>
      split at h
      next c hfind =>
        cases h
        have hle := List.find?_some hfind
        exact ⟨parent, id, hr, .late at_id (List.mem_of_find?_eq_some hfind) (by simpa using hle)⟩
      next hfind =>
        have below : ∀ c ∈ entry.children, c < id := by
          intro c hc
          simpa using List.find?_eq_none.mp hfind c hc
        cases hcheck : checkEntry arena parent entry with
        | error e =>
          rw [hcheck] at h
          cases h
          exact ⟨parent, id, hr, .failed at_id below hcheck⟩
        | ok _ =>
          rw [hcheck] at h
          cases hm : entry.children.mapM (growBelow arena bound (some entry.kind)) with
          | ok fields =>
            simp only [hm] at h
            cases h
          | error e =>
            simp only [hm] at h
            cases h
            obtain ⟨c, hc, hgrow⟩ := exists_error_of_mapM hm
            have hlt := below c hc
            exact ih hgrow (by omega) (hr.child at_id hc hlt)

theorem exists_fault_of_build {r : Refusal} (h : build arena root = .error r) :
    ∃ parent id, Reached arena root parent id ∧ Fault arena parent id r :=
  exists_fault_of_growBelow (error_of_map h) (Nat.lt_succ_self root) .root

theorem Field.kind_entry (f : Field) : f.entry.kind = f.kind := by
  cases f <;> rfl

theorem exists_grown_of_reached {l : Layout} (hb : build arena root = .ok l)
    (h : Reached arena root parent id) : ∃ f, f.id = id ∧ Grown arena parent f := by
  obtain ⟨hid, hgrown⟩ := root_of_build hb
  induction h with
  | root => exact ⟨l.root, hid, hgrown⟩
  | @child parent id c entry h at_id hc hlt ih =>
    obtain ⟨f, rfl, hf⟩ := ih
    obtain ⟨at_f, below, checked, children⟩ := hf
    obtain rfl := Option.some.inj (at_f.symm.trans at_id)
    rw [f.children_entry] at hc
    obtain ⟨g, hg, rfl⟩ := List.mem_map.mp hc
    rw [f.kind_entry]
    exact ⟨g, rfl, children g hg⟩

theorem not_fault_of_build {l : Layout} (hb : build arena root = .ok l)
    (h : Reached arena root parent id) (r : Refusal) : ¬ Fault arena parent id r := by
  obtain ⟨f, rfl, at_f, below, checked, -⟩ := exists_grown_of_reached hb h
  intro hf
  cases hf with
  | missing hnone =>
    rw [hnone] at at_f
    cases at_f
  | late at_id hc hle =>
    obtain rfl := Option.some.inj (at_f.symm.trans at_id)
    rw [f.children_entry] at hc
    obtain ⟨g, hg, rfl⟩ := List.mem_map.mp hc
    have := below g hg
    omega
  | failed at_id _ check =>
    obtain rfl := Option.some.inj (at_f.symm.trans at_id)
    rw [checked] at check
    cases check

theorem exists_build_iff : (∃ l, build arena root = .ok l) ↔
    ∀ parent id r, Reached arena root parent id → ¬ Fault arena parent id r := by
  constructor
  · rintro ⟨l, hb⟩ parent id r hr
    exact not_fault_of_build hb hr r
  · intro hno
    cases hb : build arena root with
    | ok l => exact ⟨l, rfl⟩
    | error r =>
      obtain ⟨parent, id, hr, hf⟩ := exists_fault_of_build hb
      exact absurd hf (hno parent id r hr)

theorem exists_unmeasurable_of_check {entry : Entry} {x : Nat}
    (h : checkEntry arena parent entry = .error (.unmeasurable x)) :
    ∃ s elements width, entry = .array s elements ∧ s.length = .inData width true ∧
      (DataType.unsignedBytes width).check s.name = .ok () ∧
      sumSizes (sizeIn arena arena.size) elements = .error x := by
  have hmap {α : Type} {y : Except DefinitionError α}
      (hy : y.mapError Refusal.defect = .error (.unmeasurable x)) : False := by
    cases y <;> cases hy
  cases entry with
  | scalar s => exact (hmap h).elim
  | bit b => exact (hmap h).elim
  | bitArray w cs => exact (hmap h).elim
  | group g cs => cases h
  | stream s => cases h
  | array s elements =>
    simp only [checkEntry, checkArray] at h
    split at h
    next => cases h
    next =>
      split at h
      next => cases h
      next => cases h
      next => split at h <;> cases h
      next width inBytes hlength =>
        split at h
        next => cases h
        next hreadable =>
          split at h
          next hbytes =>
            subst hbytes
            split at h
            next y hsum =>
              cases h
              exact ⟨s, elements, width, rfl, hlength, hreadable, hsum⟩
            next => cases h
            next => cases h
          next => cases h

theorem Fault.overreaches {x : Nat} (hf : Fault arena parent id (.unmeasurable x)) :
    Overreaches arena id := by
  obtain _ | _ | ⟨at_id, below, check⟩ := hf
  obtain ⟨s, elements, width, rfl, hlength, hreadable, hsum⟩ := exists_unmeasurable_of_check check
  obtain ⟨before, e, after, hsplit, hsized, he⟩ := exists_unmeasured hsum
  exact .intro at_id below hlength hreadable hsplit (fun b hb => ⟨_, hsized b hb⟩)
    (stuck_of_error he)

namespace Overreaches

theorem exists_late (h : Overreaches arena id) :
    ∃ s elements e m, arena[id]? = some (.array s elements) ∧ e ∈ elements ∧
      ReflTransGen (Asks arena) e m ∧ Late arena m := by
  obtain @⟨s, elements, before, after, width, e, at_id, below, -, -, hsplit, -, stuck⟩ := h
  have he : e ∈ elements := by
    rw [hsplit]
    simp
  have hsize := (Array.getElem?_eq_some_iff.mp at_id).1
  obtain ⟨m, ha, hm⟩ := exists_late_of_stuck (Nat.lt_trans (below e he) hsize) stuck
  exact ⟨s, elements, e, m, at_id, he, ha, hm⟩

theorem exists_check (h : Overreaches arena id) :
    ∃ entry x, arena[id]? = some entry ∧ (∀ c ∈ entry.children, c < id) ∧
      ∀ parent, checkEntry arena parent entry = .error (.unmeasurable x) := by
  obtain @⟨s, elements, before, after, width, e, at_id, below, hlength, hreadable, hsplit, sized,
    stuck⟩ := h
  cases hsum : sumSizes (sizeIn arena arena.size) elements with
  | ok sum =>
    rw [hsplit] at hsum
    obtain ⟨w, hw⟩ := exists_measured hsum fun b hb w hw => by
      obtain ⟨limit, n, hn⟩ := sized b hb
      exact ⟨n, sizeIn_unique hw hn⟩
    exact absurd hw (not_measured_of_stuck stuck _)
  | error x =>
    refine ⟨.array s elements, x, at_id, below, fun parent => ?_⟩
    have hne : elements.isEmpty = false := by simp [hsplit]
    simp only [checkEntry, checkArray, hne, hlength, hreadable, hsum, if_true]
    rfl

theorem build_root (h : Overreaches arena root) :
    ∃ x, build arena root = .error (.unmeasurable x) := by
  obtain ⟨entry, x, at_id, below, check⟩ := h.exists_check
  have hfind : entry.children.find? (root ≤ ·) = none := by
    rw [List.find?_eq_none]
    intro c hc
    have := below c hc
    simp only [decide_eq_true_eq]
    omega
  refine ⟨x, ?_⟩
  simp only [build, grow, growBelow, at_id, hfind, check]
  rfl

end Overreaches

/-- A build gives a layout if no field is at fault and reports a fault otherwise, unless an array
counted in bytes gets stuck, as it does at the root, which a child out of order is behind. It names
such a child if nothing else is wrong. Sizes are exact numbers here, and those that are computed on
the way are to fit 64 bits. -/
theorem build_reports (arena : Arena) (root : Nat) :
    ((∃ l, build arena root = .ok l) ↔
      ∀ parent id r, Reached arena root parent id → ¬ Fault arena parent id r) ∧
    ((∀ parent id, Reached arena root parent id → ¬ Overreaches arena id) →
      (∃ l, build arena root = .ok l) ∨ ∃ parent id e, Reached arena root parent id ∧
        Fault arena parent id (.defect e) ∧ build arena root = .error (.defect e)) ∧
    (Overreaches arena root → ∃ x, build arena root = .error (.unmeasurable x)) ∧
    (∀ id, Overreaches arena id → ∃ s elements e m, arena[id]? = some (.array s elements) ∧
      e ∈ elements ∧ ReflTransGen (Asks arena) e m ∧ Late arena m) ∧
    ∀ parent id, Reached arena root parent id → Late arena id →
      (∀ parent id entry, Reached arena root parent id → arena[id]? = some entry →
        (∀ c ∈ entry.children, c < id) → checkEntry arena parent entry = .ok ()) →
      ∃ parent id entry c, Reached arena root parent id ∧ arena[id]? = some entry ∧
        c ∈ entry.children ∧ id ≤ c ∧
        build arena root = .error (.defect (.unknownChild entry.name c)) := by
  refine ⟨exists_build_iff, ?_, fun h => h.build_root, fun id h => h.exists_late, ?_⟩
  · intro hno
    cases hb : build arena root with
    | ok l => exact .inl ⟨l, rfl⟩
    | error r =>
      obtain ⟨parent, id, hr, hf⟩ := exists_fault_of_build hb
      cases r with
      | defect e => exact .inr ⟨parent, id, e, hr, hf, rfl⟩
      | unmeasurable x => exact absurd hf.overreaches (hno parent id hr)
  · intro parent id hr hlate hchecks
    cases hb : build arena root with
    | ok l =>
      obtain ⟨entry, c, at_id, hc, hle⟩ := hlate
      exact absurd (.late at_id hc hle) (not_fault_of_build hb hr _)
    | error r =>
      obtain ⟨parent', id', hr', hf⟩ := exists_fault_of_build hb
      cases hf with
      | missing hnone =>
        obtain ⟨entry, c, at_id, -, -⟩ := hlate
        have hroot := hr.root_lt_size (Array.getElem?_eq_some_iff.mp at_id).1
        have := Array.getElem?_eq_none_iff.mp hnone
        have := hr'.lt_size hroot
        omega
      | @late entry c at_id hc hle => exact ⟨parent', id', entry, c, hr', at_id, hc, hle, rfl⟩
      | failed at_id below check =>
        rw [hchecks parent' id' _ hr' at_id below] at check
        cases check

def lateArena : Arena := #[
  .scalar { name := "level", dataType := .ofBits .unsigned 8 },
  .array { name := "blocks", length := .inData 1 true } [0],
  .group { name := "row" } [0, 9],
  .group { name := "frame" } [1, 2]]

theorem build_reports_lateArena :
    (∀ parent id, Reached lateArena 3 parent id → ¬ Overreaches lateArena id) ∧
    Reached lateArena 3 (some .group) 2 ∧ Late lateArena 2 ∧
    (∀ parent id entry, Reached lateArena 3 parent id → lateArena[id]? = some entry →
      (∀ c ∈ entry.children, c < id) → checkEntry lateArena parent entry = .ok ()) ∧
    (∃ parent id e, Reached lateArena 3 parent id ∧ Fault lateArena parent id (.defect e) ∧
      build lateArena 3 = .error (.defect e)) ∧
    ∃ parent id entry c, Reached lateArena 3 parent id ∧ lateArena[id]? = some entry ∧
      c ∈ entry.children ∧ id ≤ c ∧
      build lateArena 3 = .error (.defect (.unknownChild entry.name c)) := by
  have hno : ∀ parent id, Reached lateArena 3 parent id → ¬ Overreaches lateArena id := by
    rintro parent id - @⟨s, elements, before, after, width, e, at_id, -, -, -, hsplit, -, stuck⟩
    have hid : id = 1 := by
      match id, at_id with
      | 1, _ => rfl
      | 0, h | 2, h | 3, h => cases h
    subst hid
    cases at_id
    have he : e ∈ [0] := by
      rw [hsplit]
      simp
    rw [List.mem_singleton.mp he] at stuck
    exact not_measured_of_stuck stuck 1 rfl
  have at_root : lateArena[3]? = some (.group { name := "frame" } [1, 2]) := rfl
  have hreached : Reached lateArena 3 (some .group) 2 :=
    Reached.root.child at_root (by decide) (by decide)
  have hlate : Late lateArena 2 := ⟨_, 9, rfl, by decide, by decide⟩
  have hchecks : ∀ parent id entry, Reached lateArena 3 parent id → lateArena[id]? = some entry →
      (∀ c ∈ entry.children, c < id) → checkEntry lateArena parent entry = .ok () := by
    intro parent id entry _ at_id _
    match id, at_id with
    | 0, h | 1, h | 2, h | 3, h =>
      cases h
      rfl
  obtain ⟨-, hanswers, -, -, hnames⟩ := build_reports lateArena 3
  have hnamed := hnames _ 2 hreached hlate hchecks
  refine ⟨hno, hreached, hlate, hchecks, ?_, hnamed⟩
  rcases hanswers hno with ⟨l, hl⟩ | hfault
  · obtain ⟨_, _, _, _, -, -, -, -, hb⟩ := hnamed
    exact absurd (hl.symm.trans hb) nofun
  · exact hfault

def rowsArena (other : Nat) : Arena := #[
  .scalar { name := "level", dataType := .ofBits .unsigned 8 },
  .group { name := "row" } [other, 0],
  .array { name := "blocks", length := .inData 1 true } [1]]

theorem build_rowsArena :
    (∃ l, build (rowsArena 0) 2 = .ok l) ∧
    build (rowsArena 1) 2 = .error (.unmeasurable 1) ∧
    build (rowsArena 9) 2 = .error (.unmeasurable 9) ∧
    build (rowsArena 2) 2 = .error (.defect (.variableElementSize "blocks")) :=
  ⟨⟨_, rfl⟩, rfl, rfl, rfl⟩

end Telemetry.Layout
