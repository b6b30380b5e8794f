import Telemetry.Proofs.Decode.Reach

namespace Telemetry.Decode

open Layout (Arena Scalar BitField Window Field Group Series)

variable {o : Options} {x y : Field × State} {r : Remembered}

theorem eq_of_mark? {i j : Item} (h : i.mark? = some j) : i = j := by
  match i with
  | .reading .. => exact Option.some.inj h
  | .event (.arrayStart ..) => exact Option.some.inj h

theorem exists_append_of_marks {items before after : List Item} {i : Item}
    (h : items.filterMap Item.mark? = before ++ i :: after) :
    ∃ told rest, items = told ++ i :: rest ∧ told.filterMap Item.mark? = before ∧
      (i :: rest).filterMap Item.mark? = i :: after := by
  obtain ⟨front, back, rfl, hfront, hback⟩ := List.filterMap_eq_append_iff.mp h
  obtain ⟨silent, j, rest, rfl, hsilent, hj, hrest⟩ := List.filterMap_eq_cons_iff.mp hback
  obtain rfl := eq_of_mark? hj
  refine ⟨front ++ silent, rest, (List.append_assoc _ _ _).symm, ?_, ?_⟩
  · rw [List.filterMap_append, hfront, List.filterMap_eq_nil_iff.mpr hsilent, List.append_nil]
  · rw [List.filterMap_cons_some hj, hrest]

def StartsReached (o : Options) (x : Field × State) (r : Remembered) (marks : List Item) : Prop :=
  ∀ before name count after, marks = before ++ .event (.arrayStart name count) :: after →
    ∃ id s elements mid, Reaches o x (.array id s elements, mid) ∧ isPadding elements = false ∧
      s.name = name ∧ (readCount s elements mid).count = some count ∧
      mid.remembered = r.after before

namespace StartsReached

theorem of_readings {marks : List Item} (h : ∀ i ∈ marks, ∃ id s dn, i = .reading id s dn) :
    StartsReached o x r marks := by
  rintro before name count after rfl
  obtain ⟨id, s, dn, hi⟩ := h (.event (.arrayStart name count)) (by simp)
  cases hi

theorem nil : StartsReached o x r [] := of_readings (List.forall_mem_nil _)

theorem append {xs ys : List Item} (hx : StartsReached o x r xs)
    (hy : StartsReached o x (r.after xs) ys) : StartsReached o x r (xs ++ ys) := by
  intro before name count after h
  rcases List.append_eq_append_iff.mp h with ⟨zs, hb, hys⟩ | ⟨zs, hxs, hz⟩
  · obtain ⟨id, s, elements, mid, hreach, hp, hn, hc, hm⟩ := hy zs name count after hys
    refine ⟨id, s, elements, mid, hreach, hp, hn, hc, ?_⟩
    rw [hm, hb, Remembered.after_append]
  · cases zs with
    | nil =>
      obtain ⟨id, s, elements, mid, hreach, hp, hn, hc, hm⟩ := hy [] name count after hz.symm
      refine ⟨id, s, elements, mid, hreach, hp, hn, hc, ?_⟩
      rw [hm, hxs, List.append_nil]
      rfl
    | cons z zs =>
      obtain ⟨rfl, -⟩ := List.cons.inj hz
      exact hx before name count zs hxs

theorem of_begins {marks : List Item} (hb : Begins o x y) (h : StartsReached o y r marks) :
    StartsReached o x r marks := by
  intro before name count after hm
  obtain ⟨id, s, elements, mid, hreach, hrest⟩ := h before name count after hm
  exact ⟨id, s, elements, mid, .head hb hreach, hrest⟩

end StartsReached

theorem afterElements_concat (o : Options) (before : List Field) (c : Field) (st : State) :
    afterElements o (before ++ [c]) st = (field o c (afterElements o before st)).state := by
  have hsplit : fields o (before ++ [c]) = fields o before ++ [field o c] := by
    simp only [fields_eq_map, List.map_append, List.map_singleton]
  rw [afterElements, hsplit, Step.sequence_append]
  rfl

def Accounted (o : Options) (f : Field) : Prop :=
  ∀ st, StartsReached o (f, st) st.remembered ((field o f st).items.filterMap Item.mark?)

theorem Accounted.of_readings {f : Field} (h : ∀ st,
    ∀ i ∈ (field o f st).items.filterMap Item.mark?, ∃ id s dn, i = .reading id s dn) :
    Accounted o f := fun st => .of_readings (h st)

theorem marks_readScalar {channels : Bool} {id : Nat} {s : Scalar} {st : State} :
    ∀ i ∈ (readScalar channels id s st).items.filterMap Item.mark?, ∃ dn, i = .reading id s dn := by
  rw [readScalar_eq_reading]
  unfold Scan.reading
  split
  next =>
    rw [marks_notices]
    exact List.forall_mem_nil _
  next bytes _ =>
    simp only [List.filterMap_append, marks_notices, List.nil_append]
    unfold readLeaf
    split
    next => exact List.forall_mem_nil _
    next => exact List.forall_mem_nil _
    next dn _ =>
      have hoffer : (if channels then offer s dn else []).filterMap Item.mark? = [] :=
        filterMap_offered (fun _ => rfl) (fun _ => rfl) channels s dn
      simp only [List.filterMap_cons, Item.mark?, hoffer]
      exact List.forall_mem_singleton.mpr ⟨dn, rfl⟩

theorem accounted_group {children : List Field} (h : ∀ c ∈ children, Accounted o c) (id : Nat)
    (g : Group) : Accounted o (.group id g children) := by
  intro st
  rw [(group_agrees o id g children st).2]
  -- the children that are left, behind those decoded
  suffices hrest : ∀ rest before, before ++ rest = children →
      StartsReached o (.group id g children, st) (afterElements o before st).remembered
        ((Step.withinData (fields o rest) (afterElements o before st)).items.filterMap Item.mark?)
    from hrest children [] rfl
  intro rest
  induction rest with
  | nil => exact fun _ _ => .nil
  | cons c rest ih =>
    intro before hsplit
    simp only [fields, Step.withinData, Step.whereData]
    split
    next hmore =>
      have hnext := ih (before ++ [c]) (by rw [← hsplit, List.append_assoc]; rfl)
      rw [afterElements_concat, remembered_field, ← after_marks] at hnext
      simp only [Step.andThen, List.filterMap_append]
      apply StartsReached.append
      · have hc : c ∈ children := by
          rw [← hsplit]
          exact List.mem_append_right _ (.head _)
        have hbegin : Begins o (.group id g children, st) (c, afterElements o before st) := by
          rw [← hsplit]
          exact .child hmore
        exact .of_begins hbegin (h c hc _)
      · exact hnext
    next => exact .nil

section Arrays

variable {elements : List Field} {id : Nat} {s : Series} {st : State} {count : Option Nat}

theorem startsReached_lap (h : ∀ c ∈ elements, Accounted o c) (hp : isPadding elements = false)
    (hc : (readCount s elements st).count = some count) {k : Nat} {lap : State}
    (hk : k < lapsMade o elements count (readCount s elements st).state)
    (hlap : ((Step.sequence (fields o elements)).repeated k
      (readCount s elements st).state).state = lap) :
    ∀ rest before, before ++ rest = elements →
      StartsReached o (.array id s elements, st) (afterElements o before lap).remembered
        ((Step.sequence (fields o rest) (afterElements o before lap)).items.filterMap Item.mark?) := by
  intro rest
  -- `rest` are the elements left of this repetition, behind those decoded
  induction rest with
  | nil => exact fun _ _ => .nil
  | cons c rest ih =>
    intro before hsplit
    have hnext := ih (before ++ [c]) (by rw [← hsplit, List.append_assoc]; rfl)
    rw [afterElements_concat, remembered_field, ← after_marks] at hnext
    simp only [fields, Step.sequence, Step.andThen, List.filterMap_append]
    apply StartsReached.append
    · have hmem : c ∈ elements := by
        rw [← hsplit]
        exact List.mem_append_right _ (.head _)
      have hbegin : Begins o (.array id s elements, st) (c, afterElements o before lap) := by
        rw [← hlap]
        exact .element hsplit.symm hp hc hk
      exact .of_begins hbegin (h c hmem _)
    · exact hnext

theorem startsReached_laps (h : ∀ c ∈ elements, Accounted o c) (hp : isPadding elements = false)
    (hc : (readCount s elements st).count = some count) :
    ∀ n ≤ lapsMade o elements count (readCount s elements st).state,
      StartsReached o (.array id s elements, st) st.remembered
        (((Step.sequence (fields o elements)).repeated n
          (readCount s elements st).state).items.filterMap Item.mark?) := by
  intro n
  induction n with
  | zero => exact fun _ => .nil
  | succ n ih =>
    intro hn
    rw [Step.repeated_add, Step.repeated_one]
    simp only [Step.andThen, List.filterMap_append]
    apply StartsReached.append (ih (Nat.le_of_succ_le hn))
    rw [after_marks, ← remembered_readCount s elements st, ← remembered_repeated]
    exact startsReached_lap h hp hc hn rfl elements [] rfl

theorem accounted_array (h : ∀ c ∈ elements, Accounted o c) (id : Nat) (s : Series) :
    Accounted o (.array id s elements) := by
  intro st
  cases hc : (readCount s elements st).count with
  | none =>
    have hitems : (field o (.array id s elements) st).items.filterMap Item.mark? = [] := by
      simp only [field, arrayStep, hc, elementsStep, Step.tell, List.append_nil, marks_notices]
    rw [hitems]
    exact .nil
  | some count =>
    cases hp : isPadding elements with
    | true =>
      have hitems : (field o (.array id s elements) st).items.filterMap Item.mark? = [] := by
        simp only [field, arrayStep, hc, elementsStep, hp, if_true, List.append_nil, marks_notices]
      rw [hitems]
      exact .nil
    | false =>
      rw [marks_array hp hc, Laps.items_step, ← List.singleton_append]
      apply StartsReached.append
      · intro before name length after hsplit
        cases before with
        | nil =>
          cases hsplit
          exact ⟨id, s, elements, st, .refl, hp, rfl, hc, rfl⟩
        | cons i before =>
          have hnil := (List.cons.inj hsplit).2
          simp at hnil
      · exact startsReached_laps h hp hc _ (Nat.le_refl _)

end Arrays

theorem accounted (o : Options) (f : Field) : Accounted o f := by
  induction f using Field.induction with
  | scalar id s =>
    apply Accounted.of_readings
    intro st i hi
    rw [marks_scalar] at hi
    exact ⟨id, s, marks_readScalar i hi⟩
  | bit id b => exact .of_readings fun _ => List.forall_mem_nil _
  | group id g children ih => exact accounted_group ih id g
  | array id s elements ih => exact accounted_array ih id s
  | bitArray id w children _ =>
    apply Accounted.of_readings
    intro st
    rw [marks_bitArray]
    exact List.forall_mem_nil _
  | stream id s =>
    apply Accounted.of_readings
    intro st
    rw [field, filterMap_streamStep (fun _ _ _ => rfl) (fun _ _ => rfl) fun _ => rfl]
    exact List.forall_mem_nil _

theorem count_of_ofField {s : Series} {elements : List Field} {mid : State} {c : Nat}
    (h : s.length = .ofField c) :
    (readCount s elements mid).count = some (some ((mid.remembered.get? c).getD 0)) := by
  simp only [readCount, h]
  cases mid.remembered.get? c <;> rfl

/-- An array that a field counts has for its length the last number decoded for the field that can be
one. That is the newest number of all unless it is negative, and then an older one. -/
theorem length_eq_lastCount {arena : Arena} {root : Nat} {l : Layout}
    (hb : Layout.build arena root = .ok l) (o : Options) (data : List UInt8) :
    ∃ d, l.decode o data = .ok d ∧
      (∀ id s elements mid, Reaches o (l.root, .start data) (.array id s elements, mid) →
        ∀ c, s.length = .ofField c → ∃ before after, d.trace = before ++ after ∧
          (field o (.array id s elements) mid).items.filterMap Item.mark? <+:
            after.filterMap Item.mark? ∧
          (readCount s elements mid).count = some (some ((lastCount? c before).getD 0)) ∧
          (isPadding elements = false →
            after.head? = some (.event (.arrayStart s.name (some ((lastCount? c before).getD 0)))))) ∧
      ∀ before name count after, d.trace = before ++ .event (.arrayStart name count) :: after →
        ∃ id s elements mid, Reaches o (l.root, .start data) (.array id s elements, mid) ∧
          isPadding elements = false ∧ s.name = name ∧
          ∀ c, s.length = .ofField c → count = some ((lastCount? c before).getD 0) ∧
            (newest? c before = none → count = some 0) ∧
            ∀ n, (newest? c before).bind Value.count? = some n → count = some n.toNat := by
  refine ⟨_, decode_of_build hb o data, ?_, ?_⟩
  · intro id s elements mid hreach c hlength
    obtain ⟨before, after, hmarks, hmemory⟩ := within_of_reaches hreach
    have hlast (told : List Item) (h : told.filterMap Item.mark? = before) :
        mid.remembered.get? c = lastCount? c told := by
      rw [hmemory, ← h, after_marks]
      exact Remembered.get?_after told c
    have hcount : (readCount s elements mid).count =
        some (some ((mid.remembered.get? c).getD 0)) := count_of_ofField hlength
    cases hp : isPadding elements with
    | true =>
      rw [List.append_assoc] at hmarks
      obtain ⟨told, rest, hsplit, htold, hrest⟩ := List.filterMap_eq_append_iff.mp hmarks
      rw [hlast told htold] at hcount
      exact ⟨told, rest, hsplit, ⟨after, hrest.symm⟩, hcount, nofun⟩
    | false =>
      rw [marks_array hp hcount, List.append_assoc, List.cons_append] at hmarks
      obtain ⟨told, rest, hsplit, htold, hrest⟩ := exists_append_of_marks hmarks
      rw [hlast told htold] at hcount hsplit hrest
      refine ⟨told, _, hsplit, ⟨after, ?_⟩, hcount, fun _ => rfl⟩
      rw [marks_array hp hcount, List.cons_append, hrest]
  · intro before name count after hsplit
    have hstart : Item.mark? (.event (.arrayStart name count)) =
        some (.event (.arrayStart name count)) := rfl
    have hmarks := congrArg (List.filterMap Item.mark?) hsplit
    rw [List.filterMap_append, List.filterMap_cons_some hstart] at hmarks
    obtain ⟨id, s, elements, mid, hreach, hp, hn, hc, hm⟩ :=
      accounted o l.root (.start data) _ name count _ hmarks
    refine ⟨id, s, elements, mid, hreach, hp, hn, ?_⟩
    intro c hlength
    have hcount : count = some ((lastCount? c before).getD 0) := by
      rw [count_of_ofField hlength, hm, after_marks] at hc
      rw [← Remembered.get?_after]
      exact (Option.some.inj hc).symm
    refine ⟨hcount, fun hnone => ?_, fun n hnewest => ?_⟩
    · rw [hcount, lastCount?_of_newest_none hnone, Option.getD_none]
    · rw [hcount, lastCount?_of_newest hnewest, Option.getD_some]

namespace Tallies

def arena : Arena := #[
  .scalar { name := "n", dataType := .ofBits .signed 8 },
  .scalar { name := "v", dataType := .ofBits .unsigned 8 },
  .array { name := "values", length := .ofField 0 } [1],
  .array { name := "rows", length := .fixed 2 } [0, 2]]

def number : Scalar := { name := "n", dataType := .ofBits .signed 8 }

def values : Field :=
  .array 2 { name := "values", length := .ofField 0 }
    [.scalar 1 { name := "v", dataType := .ofBits .unsigned 8 }]

def layout : Layout where
  arena := arena
  root := .array 3 { name := "rows", length := .fixed 2 } [.scalar 0 number, values]

theorem build_arena : Layout.build arena 3 = .ok layout := rfl

def data : List UInt8 := [1, 7, 0xFF, 9]

def second : State :=
  afterElements {} [.scalar 0 number]
    ((Step.sequence (fields {} layout.root.children)).repeated 1 (.start data)).state

theorem reaches_second : Reaches {} (layout.root, .start data) (values, second) := by
  have hlap : 1 < lapsMade {} layout.root.children (some 2) (.start data) := by decide +kernel
  exact .single (.element rfl rfl rfl hlap)

end Tallies

open Tallies in
theorem length_eq_lastCount_tallies :
    ∃ d, Layout.build arena 3 = .ok layout ∧ layout.decode {} data = .ok d ∧
      ∃ before after, d.trace = before ++ after ∧ after.head? =
        some (.event (.arrayStart "values" (some ((lastCount? 0 before).getD 0)))) := by
  obtain ⟨d, hd, hreached, -⟩ := length_eq_lastCount build_arena {} data
  obtain ⟨before, after, hsplit, -, -, hstart⟩ := hreached _ _ _ _ reaches_second 0 rfl
  exact ⟨d, build_arena, hd, before, after, hsplit, hstart rfl⟩

open Tallies in
theorem length_of_negative :
    ∃ d before after, layout.decode {} data = .ok d ∧
      d.trace = before ++ .event (.arrayStart "values" (some 1)) :: after ∧
      newest? 0 before = some (.signed (-1)) := by
  let items := (field {} layout.root (.start data)).items
  have hsplit : items = items.take 14 ++ .event (.arrayStart "values" (some 1)) :: items.drop 15 := by
    decide +kernel
  have hnewest : newest? 0 (items.take 14) = some (.signed (-1)) := by decide +kernel
  exact ⟨_, _, _, decode_of_build build_arena {} data, hsplit, hnewest⟩

end Telemetry.Decode
