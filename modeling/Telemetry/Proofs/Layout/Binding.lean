import Telemetry.Proofs.Layout.Checks
import Telemetry.Proofs.Layout.Walk

namespace Telemetry.Layout

def LastNamed (fields : List Field) (name : String) (id : Nat) : Prop :=
  ∃ init s rest, fields = init ++ .scalar id s :: rest ∧ s.name = name ∧
    ∀ i t, .scalar i t ∈ rest → t.name ≠ name

inductive Declares (binds : String → Nat → Prop) (l : LengthDefinition) : ArrayLength → Prop where
  | fixed {count : Nat} (h : l.count = some count) : Declares binds l (.fixed count)
  | inData {bytes : Nat} (h : l.lengthBytes = some bytes) :
      Declares binds l (.inData bytes l.inBytes)
  | ofField {name : String} {id : Nat} (h : l.lengthField = some name) (bound : binds name id) :
      Declares binds l (.ofField id)
  | untilExhausted (h : l.untilExhausted = true) : Declares binds l .untilExhausted

structure Translates (tables : List Enumeration) (binds : String → Nat → Prop)
    (c : FieldDefinition) (f : Field) : Prop where
  heading : f.heading = c.heading
  table : f.table?.map Enumeration.name = c.enumeration?
  declared : ∀ t, f.table? = some t → t ∈ tables
  length : ∀ l, c.length? = some l → l.ways = 1 ∧
    ∃ length, f.length? = some length ∧ Declares binds l length
  outside : ∀ id, f.length? = some (.ofField id) → ∀ g ∈ f.preorder, id < g.id

section Names

variable {tables : List Enumeration}

theorem name_of_enumeration {field name : String} {t : Enumeration}
    (h : enumeration tables field name = .ok t) : t ∈ tables ∧ t.name = name := by
  unfold enumeration at h
  split at h
  next t' ht =>
    cases h
    exact ⟨List.mem_of_find?_eq_some ht, by simpa using List.find?_some ht⟩
  next => cases h

theorem names_of_mapM {field : String} {name : Option String} {t : Option Enumeration}
    (h : name.mapM (enumeration tables field) = .ok t) :
    t.map Enumeration.name = name ∧ ∀ u, t = some u → u ∈ tables := by
  cases name with
  | none =>
    cases h
    exact ⟨rfl, nofun⟩
  | some name =>
    cases he : enumeration tables field name with
    | error e =>
      rw [Option.mapM_some, he] at h
      cases h
    | ok u =>
      rw [Option.mapM_some, he] at h
      cases h
      obtain ⟨hmem, hname⟩ := name_of_enumeration he
      refine ⟨congrArg some hname, ?_⟩
      rintro _ ⟨⟩
      exact hmem

theorem names_of_attributes {field : String} {a : AttributesDefinition} {attrs : Attributes}
    (h : attributes tables field a = .ok attrs) :
    attrs.lookup.map Enumeration.name = a.enumeration ∧
      ∀ t, attrs.lookup = some t → t ∈ tables := by
  obtain ⟨lookup, hl, h⟩ := exists_of_bind_eq_ok h
  obtain ⟨format, -, h⟩ := exists_of_bind_eq_ok h
  cases h
  exact names_of_mapM hl

theorem declares_of_arrayLength {scalars : List (String × Nat)} {array : String}
    {l : LengthDefinition} {length : ArrayLength} (h : arrayLength scalars array l = .ok length) :
    l.ways = 1 ∧ Declares (fun name id => scalars.lookup name = some id) l length := by
  unfold arrayLength at h
  split at h
  · cases h
  split at h
  · cases h
  have hways : l.ways = 1 := by omega
  refine ⟨hways, ?_⟩
  split at h
  next count _ _ hc =>
    cases h
    exact .fixed hc
  next bytes _ _ hb =>
    cases h
    exact .inData hb
  next name _ _ hf =>
    split at h
    next id hid =>
      cases h
      exact .ofField hf hid
    next => cases h
  next hc hb hf =>
    cases h
    apply Declares.untilExhausted
    simpa [LengthDefinition.ways, hc, hb, hf] using hways

theorem Declares.mono {binds binds' : String → Nat → Prop}
    (hb : ∀ name id, binds name id → binds' name id) {l : LengthDefinition} {length : ArrayLength}
    (h : Declares binds l length) : Declares binds' l length := by
  cases h with
  | fixed h => exact .fixed h
  | inData h => exact .inData h
  | ofField h bound => exact .ofField h (hb _ _ bound)
  | untilExhausted h => exact .untilExhausted h

theorem Declares.bound_of_named {binds : String → Nat → Prop} {l : LengthDefinition}
    {length : ArrayLength} (h : Declares binds l length) (hways : l.ways = 1) {name : String}
    (hn : l.lengthField = some name) : ∃ id, length = .ofField id ∧ binds name id := by
  simp only [LengthDefinition.ways, hn, Option.isSome_some, Bool.toNat_true] at hways
  cases h with
  | fixed hc =>
    rw [hc, Option.isSome_some, Bool.toNat_true] at hways
    omega
  | inData hb =>
    rw [hb, Option.isSome_some, Bool.toNat_true] at hways
    omega
  | untilExhausted hu =>
    rw [hu, Bool.toNat_true] at hways
    omega
  | ofField hf bound =>
    cases hn.symm.trans hf
    exact ⟨_, rfl, bound⟩

theorem Translates.mono {binds binds' : String → Nat → Prop}
    (hb : ∀ name id, binds name id → binds' name id) {c : FieldDefinition} {f : Field}
    (h : Translates tables binds c f) : Translates tables binds' c f :=
  { h with
    length := fun l hl => by
      obtain ⟨hways, length, hf, hd⟩ := h.length l hl
      exact ⟨hways, length, hf, hd.mono hb⟩ }

end Names

def scalarsOf (fields : List Field) : List (String × Nat) := (fields.filterMap Field.named?).reverse

theorem scalarsOf_append (fs gs : List Field) :
    scalarsOf (fs ++ gs) = scalarsOf gs ++ scalarsOf fs := by
  rw [scalarsOf, List.filterMap_append, List.reverse_append]
  rfl

theorem scalarsOf_cons (f : Field) (fs : List Field) :
    scalarsOf (f :: fs) = scalarsOf fs ++ f.named?.toList := by
  rw [scalarsOf, List.filterMap_cons]
  cases f.named? with
  | none => exact (List.append_nil _).symm
  | some p => exact List.reverse_cons

theorem lastNamed_of_lookup {fields : List Field} {name : String} {id : Nat}
    (h : (scalarsOf fields).lookup name = some id) : LastNamed fields name id := by
  obtain ⟨later, earlier, he, hlater⟩ := List.lookup_eq_some_iff.mp h
  have hf : fields.filterMap Field.named? = earlier.reverse ++ (name, id) :: later.reverse := by
    rw [scalarsOf, List.reverse_eq_iff] at he
    rw [he, List.reverse_append, List.reverse_cons, List.append_assoc, List.singleton_append]
  obtain ⟨init, tail, rfl, -, htail⟩ := List.filterMap_eq_append_iff.mp hf
  obtain ⟨unnamed, f, rest, rfl, -, hname, hrest⟩ := List.filterMap_eq_cons_iff.mp htail
  cases f with
  | scalar i s =>
    cases hname
    refine ⟨init ++ unnamed, s, rest, (List.append_assoc ..).symm, rfl, ?_⟩
    intro i t ht heq
    have hmem : (t.name, i) ∈ rest.filterMap Field.named? := List.mem_filterMap.mpr ⟨_, ht, rfl⟩
    rw [hrest, List.mem_reverse] at hmem
    simpa [heq] using hlater _ hmem
  | bit i b | group i g cs | array i s cs | bitArray i w cs | stream i s => cases hname

end Telemetry.Layout
