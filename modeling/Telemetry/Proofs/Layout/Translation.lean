import Telemetry.Proofs.Layout.Binding
import Telemetry.Proofs.Layout.Presentation

namespace Telemetry.Layout

inductive TranslatesAll (tables : List Enumeration) :
    List (String × Nat) → List FieldDefinition → List Field → Prop where
  | nil {scalars : List (String × Nat)} : TranslatesAll tables scalars [] []
  | cons {scalars : List (String × Nat)} {c : FieldDefinition} {f : Field}
      {cs : List FieldDefinition} {fs : List Field}
      (head : Translates tables (fun name id => scalars.lookup name = some id) c f)
      (tail : TranslatesAll tables (f.named?.toList ++ scalars) cs fs) :
      TranslatesAll tables scalars (c :: cs) (f :: fs)

namespace TranslatesAll

variable {tables : List Enumeration} {scalars : List (String × Nat)}
variable {cs cs' : List FieldDefinition} {fs fs' : List Field}

theorem append (h : TranslatesAll tables scalars cs fs)
    (h' : TranslatesAll tables (scalarsOf fs ++ scalars) cs' fs') :
    TranslatesAll tables scalars (cs ++ cs') (fs ++ fs') := by
  induction h with
  | nil => exact h'
  | cons head _ ih =>
    rw [scalarsOf_cons, List.append_assoc] at h'
    exact .cons head (ih h')

theorem heading_eq (h : TranslatesAll tables scalars cs fs) :
    fs.map Field.heading = cs.map FieldDefinition.heading := by
  induction h with
  | nil => rfl
  | cons head _ ih => rw [List.map_cons, List.map_cons, head.heading, ih]

theorem exists_getElem? (h : TranslatesAll tables scalars cs fs) {i : Nat} {c : FieldDefinition}
    (hc : cs[i]? = some c) : ∃ f, fs[i]? = some f ∧
      Translates tables (fun name id => (scalarsOf (fs.take i) ++ scalars).lookup name = some id)
        c f := by
  induction h generalizing i with
  | nil => cases hc
  | @cons scalars c' f cs fs head _ ih =>
    cases i with
    | zero =>
      cases hc
      exact ⟨f, rfl, head⟩
    | succ i =>
      obtain ⟨g, hg, ht⟩ := ih hc
      rw [List.take_succ_cons, scalarsOf_cons, List.append_assoc]
      exact ⟨g, hg, ht⟩

end TranslatesAll

def Draft.Sound (d : Draft) : Prop := ∀ p ∈ d.scalars, p.2 < d.arena.size

structure Added (tables : List Enumeration) (d : Draft) (cs : List FieldDefinition)
    (fs : List Field) (d' : Draft) : Prop where
  arity : fs.length = cs.length
  arena : d'.arena.toList = d.arena.toList ++ (fs.flatMap Field.postorder).map Field.entry
  ids : (fs.flatMap Field.postorder).map Field.id =
    List.range' d.arena.size (fs.flatMap Field.postorder).length
  scalars : d'.scalars = scalarsOf (fs.flatMap Field.preorder) ++ d.scalars
  translates : TranslatesAll tables d.scalars (cs.flatMap FieldDefinition.preorder)
    (fs.flatMap Field.preorder)

theorem flatMap_postorder_perm (fs : List Field) :
    (fs.flatMap Field.postorder).Perm (fs.flatMap Field.preorder) :=
  List.Perm.flatMap_left fs fun f _ => f.postorder_perm

namespace Added

variable {tables : List Enumeration} {d d' d'' : Draft} {cs cs' : List FieldDefinition}
variable {fs fs' : List Field}

theorem size_eq (h : Added tables d cs fs d') :
    d'.arena.size = d.arena.size + (fs.flatMap Field.postorder).length := by
  have hs := congrArg List.length h.arena
  simpa using hs

theorem id_mem (h : Added tables d cs fs d') {g : Field} (hg : g ∈ fs.flatMap Field.preorder) :
    d.arena.size ≤ g.id ∧ g.id < d'.arena.size := by
  have hpost := (flatMap_postorder_perm fs).mem_iff.mpr hg
  have hid : g.id ∈ (fs.flatMap Field.postorder).map Field.id := List.mem_map_of_mem hpost
  rw [h.ids, List.mem_range'_1, ← h.size_eq] at hid
  exact hid

theorem sound (h : Added tables d cs fs d') (hd : d.Sound) : d'.Sound := by
  intro p hp
  rw [h.scalars] at hp
  rcases List.mem_append.mp hp with hp | hp
  · obtain ⟨g, hg, hn⟩ := List.mem_filterMap.mp (List.mem_reverse.mp hp)
    have hlt := (h.id_mem hg).2
    cases g with
    | scalar id s =>
      cases hn
      exact hlt
    | bit id b | group id g cs | array id s cs | bitArray id w cs | stream id s => cases hn
  · have hlt := hd p hp
    have hsize := h.size_eq
    omega

theorem nil (tables : List Enumeration) (d : Draft) : Added tables d [] [] d where
  arity := rfl
  arena := (List.append_nil _).symm
  ids := rfl
  scalars := rfl
  translates := .nil

theorem append (h : Added tables d cs fs d') (h' : Added tables d' cs' fs' d'') :
    Added tables d (cs ++ cs') (fs ++ fs') d'' where
  arity := by rw [List.length_append, List.length_append, h.arity, h'.arity]
  arena := by
    rw [h'.arena, h.arena, List.append_assoc, List.flatMap_append, List.map_append]
  ids := by
    rw [List.flatMap_append, List.map_append, h.ids, h'.ids, h.size_eq, List.length_append,
      List.range'_append_1]
  scalars := by
    rw [h'.scalars, h.scalars, List.flatMap_append, scalarsOf_append, List.append_assoc]
  translates := by
    rw [List.flatMap_append, List.flatMap_append]
    apply h.translates.append
    rw [← h.scalars]
    exact h'.translates

theorem push {c : FieldDefinition} {f : Field} (h : Added tables d c.children f.children d')
    (hid : f.id = d'.arena.size)
    (ht : Translates tables (fun name id => d.scalars.lookup name = some id) c f) :
    Added tables d [c] [f] ⟨d'.arena.push f.entry, f.named?.toList ++ d'.scalars⟩ where
  arity := rfl
  arena := by
    rw [Array.toList_push, h.arena, List.flatMap_singleton, Field.postorder_eq, List.map_append,
      List.append_assoc, List.map_singleton]
  ids := by
    rw [List.flatMap_singleton, Field.postorder_eq, List.map_append, h.ids, List.map_singleton, hid,
      h.size_eq, List.length_append, List.length_singleton, List.range'_concat, Nat.one_mul]
  scalars := by
    -- the field is written before the fields in it and named after them, but no scalar has any
    rw [List.flatMap_singleton, Field.preorder_eq, scalarsOf_cons, h.scalars]
    rcases f.named?_eq_none_or with hn | hc
    · rw [hn, Option.toList_none, List.append_nil, List.nil_append]
    · rw [hc, List.flatMap_nil]
      rfl
  translates := by
    rw [List.flatMap_singleton, List.flatMap_singleton, Field.preorder_eq,
      FieldDefinition.preorder_eq_cons]
    refine .cons ht ?_
    rcases f.named?_eq_none_or with hn | hc
    · rw [hn]
      exact h.translates
    · have hempty := h.translates.heading_eq
      rw [hc, List.flatMap_nil, List.map_nil, eq_comm, List.map_eq_nil_iff] at hempty
      rw [hc, hempty]
      exact .nil

end Added

section Adding

variable {tables : List Enumeration}

def Adds (tables : List Enumeration) (c : FieldDefinition) : Prop :=
  ∀ (d : Draft) (id : Nat) (d' : Draft), d.Sound → c.add tables d = .ok (id, d') →
    ∃ f, f.id = id ∧ Added tables d [c] [f] d'

theorem added_of_addAll {cs : List FieldDefinition} (h : ∀ c ∈ cs, Adds tables c) {d d' : Draft}
    {ids : List Nat} (hd : d.Sound) (ha : addAll tables d cs = .ok (ids, d')) :
    ∃ fs, fs.map Field.id = ids ∧ Added tables d cs fs d' := by
  induction cs generalizing d ids with
  | nil =>
    cases ha
    exact ⟨[], rfl, .nil tables _⟩
  | cons c cs ih =>
    rw [addAll] at ha
    obtain ⟨⟨id, d₁⟩, hc, ha⟩ := exists_of_bind_eq_ok ha
    obtain ⟨⟨ids, d₂⟩, hcs, ha⟩ := exists_of_bind_eq_ok ha
    cases ha
    obtain ⟨f, rfl, hf⟩ := h c List.mem_cons_self _ _ _ hd hc
    obtain ⟨fs, rfl, hfs⟩ := ih (fun c hc => h c (List.mem_cons_of_mem _ hc)) (hf.sound hd) hcs
    exact ⟨f :: fs, rfl, hf.append hfs⟩

theorem translates_of_no_length {binds : String → Nat → Prop} {c : FieldDefinition} {f : Field}
    (heading : f.heading = c.heading)
    (names : f.table?.map Enumeration.name = c.enumeration? ∧ ∀ t, f.table? = some t → t ∈ tables)
    (hc : c.length? = none) (hf : f.length? = none) : Translates tables binds c f where
  heading := heading
  table := names.1
  declared := names.2
  length := by
    rw [hc]
    rintro _ ⟨⟩
  outside := by
    rw [hf]
    rintro _ ⟨⟩

theorem no_names (tables : List Enumeration) :
    (none : Option Enumeration).map Enumeration.name = none ∧
      ∀ t, (none : Option Enumeration) = some t → t ∈ tables :=
  ⟨rfl, nofun⟩

theorem translates_array {name : String} {elements : List FieldDefinition}
    {length : LengthDefinition} {labels : List String} {labelEnumeration format : Option String}
    {id : Nat} {s : Series} {fs : List Field} {d d' : Draft} (hd : d.Sound)
    (h : Added tables d elements fs d') (hid : id = d'.arena.size) (hname : s.name = name)
    (hl : arrayLength d.scalars name length = .ok s.length)
    (ht : labelEnumeration.mapM (enumeration tables name) = .ok s.labelTable) :
    Translates tables (fun name id => d.scalars.lookup name = some id)
      (.array name elements length labels labelEnumeration format) (.array id s fs) where
  heading := by simp only [Field.heading, FieldDefinition.heading, hname, h.arity]
  table := (names_of_mapM ht).1
  declared := (names_of_mapM ht).2
  length := by
    rintro _ ⟨⟩
    obtain ⟨hways, hlength⟩ := declares_of_arrayLength hl
    exact ⟨hways, _, rfl, hlength⟩
  outside := by
    intro i hi
    -- the number was added before the first of the elements
    have hcount : i < d.arena.size := by
      have hdecl := (declares_of_arrayLength hl).2
      rw [Option.some.inj hi] at hdecl
      cases hdecl with
      | ofField _ bound =>
        obtain ⟨later, earlier, he, -⟩ := List.lookup_eq_some_iff.mp bound
        apply hd (_, i)
        rw [he]
        exact List.mem_append_right _ List.mem_cons_self
    rw [Field.forall_mem_preorder]
    have hsize := h.size_eq
    refine ⟨by simp only [Field.id]; omega, fun c hc g hg => ?_⟩
    have hle := (h.id_mem (List.mem_flatMap.mpr ⟨c, hc, hg⟩)).1
    omega

theorem adds (tables : List Enumeration) (c : FieldDefinition) : Adds tables c := by
  induction c using FieldDefinition.induction with
  | scalar name base bits attrs lengthBytes channel tag =>
    intro d id d' hd h
    simp only [FieldDefinition.add] at h
    obtain ⟨a, ha, h⟩ := exists_of_bind_eq_ok h
    cases h
    refine ⟨.scalar d.arena.size _, rfl, .push (.nil tables d) rfl ?_⟩
    refine translates_of_no_length ?_ (names_of_attributes ha) rfl rfl
    cases bits <;> rfl
  | bit name bits attrs =>
    intro d id d' hd h
    rw [FieldDefinition.add] at h
    obtain ⟨a, ha, h⟩ := exists_of_bind_eq_ok h
    cases h
    refine ⟨.bit d.arena.size _, rfl, .push (.nil tables d) rfl ?_⟩
    exact translates_of_no_length rfl (names_of_attributes ha) rfl rfl
  | stream name maxLen display handler =>
    intro d id d' hd h
    rw [FieldDefinition.add] at h
    cases h
    refine ⟨.stream d.arena.size _, rfl, .push (.nil tables d) rfl ?_⟩
    exact translates_of_no_length rfl (no_names tables) rfl rfl
  | group name typeName format fields ih =>
    intro d id d' hd h
    rw [FieldDefinition.add] at h
    obtain ⟨⟨ids, d₁⟩, hfields, h⟩ := exists_of_bind_eq_ok h
    obtain ⟨printFormat, -, h⟩ := exists_of_bind_eq_ok h
    cases h
    obtain ⟨fs, rfl, hfs⟩ := added_of_addAll ih hd hfields
    refine ⟨.group d₁.arena.size _ fs, rfl, hfs.push rfl ?_⟩
    refine translates_of_no_length ?_ (no_names tables) rfl rfl
    simp only [Field.heading, FieldDefinition.heading, hfs.arity]
  | bitArray name bits fields ih =>
    intro d id d' hd h
    rw [FieldDefinition.add] at h
    obtain ⟨⟨ids, d₁⟩, hfields, h⟩ := exists_of_bind_eq_ok h
    cases h
    obtain ⟨fs, rfl, hfs⟩ := added_of_addAll ih hd hfields
    refine ⟨.bitArray d₁.arena.size _ fs, rfl, hfs.push rfl ?_⟩
    refine translates_of_no_length ?_ (no_names tables) rfl rfl
    simp only [Field.heading, FieldDefinition.heading, hfs.arity]
  | array name elements length labels labelEnumeration format ih =>
    intro d id d' hd h
    rw [FieldDefinition.add] at h
    obtain ⟨length', hl, h⟩ := exists_of_bind_eq_ok h
    obtain ⟨⟨ids, d₁⟩, helements, h⟩ := exists_of_bind_eq_ok h
    obtain ⟨labelTable, ht, h⟩ := exists_of_bind_eq_ok h
    obtain ⟨printFormat, -, h⟩ := exists_of_bind_eq_ok h
    cases h
    obtain ⟨fs, rfl, hfs⟩ := added_of_addAll ih hd helements
    refine ⟨.array d₁.arena.size _ fs, rfl, hfs.push rfl ?_⟩
    exact translates_array hd hfs rfl rfl hl ht

end Adding

structure ProductDefinition.Translated (p : ProductDefinition) (l : Layout) : Prop where
  size : l.arena.size = p.root.preorder.length
  held : ∀ f ∈ l.root.preorder, l.arena[f.id]? = some f.entry
  postorder : l.root.postorder.map Field.id = List.range l.arena.size
  reached : (l.root.preorder.map Field.id).Perm (List.range l.arena.size)
  headings : l.root.preorder.map Field.heading = p.root.preorder.map FieldDefinition.heading
  bound : ∀ (i : Nat) (c : FieldDefinition), p.root.preorder[i]? = some c →
    ∃ f, l.root.preorder[i]? = some f ∧
      Translates p.enumerations (LastNamed (l.root.preorder.take i)) c f

/-- An array without a length or with several, or a name that means nothing where it stands. -/
inductive FieldDefinition.Misdeclared (tables : List Enumeration) (before : List FieldDefinition)
    (c : FieldDefinition) : Prop where
  | length {l : LengthDefinition} (h : c.length? = some l) (ways : l.ways ≠ 1)
  | lengthField {l : LengthDefinition} {name : String} (h : c.length? = some l)
      (named : l.lengthField = some name)
      (missing : ∀ b ∈ before, b.heading.kind = .scalar → b.heading.name ≠ name)
  | enumeration {name : String} (h : c.enumeration? = some name)
      (missing : ∀ t ∈ tables, t.name ≠ name)

def ProductDefinition.Misdeclared (p : ProductDefinition) : Prop :=
  ∃ (i : Nat) (c : FieldDefinition), p.root.preorder[i]? = some c ∧
    c.Misdeclared p.enumerations (p.root.preorder.take i)

theorem Grown.eq_of_held {arena : Arena} {parent : Option Kind} {f g : Field}
    (h : Grown arena parent g) (held : ∀ x ∈ f.preorder, arena[x.id]? = some x.entry)
    (hid : g.id = f.id) : g = f := by
  induction h generalizing f with
  | @intro parent g at_id below checked children ih =>
    rw [Field.forall_mem_preorder] at held
    obtain ⟨hf, hcs⟩ := held
    have he : g.entry = f.entry := by
      rw [hid, hf] at at_id
      exact (Option.some.inj at_id).symm
    have hids := congrArg Entry.children he
    rw [Field.children_entry, Field.children_entry] at hids
    have hchildren := map_eq_map_of_map_eq (g := id) hids fun c hc b hb hcb =>
      ih c hc (hcs b hb) hcb
    rw [List.map_id, List.map_id] at hchildren
    exact Field.eq_of_entry_eq hid he hchildren

section Building

variable {p : ProductDefinition} {f : Field} {d : Draft}

theorem held_of_added (h : Added p.enumerations {} [p.root] [f] d) :
    ∀ g ∈ f.preorder, d.arena[g.id]? = some g.entry := by
  intro g hg
  have ha := h.arena
  have hids := h.ids
  rw [List.flatMap_singleton] at ha hids
  obtain ⟨k, hk⟩ := List.mem_iff_getElem?.mp (f.postorder_perm.mem_iff.mpr hg)
  have hid : g.id = k := by
    have hget := congrArg (·[k]?) hids
    have hlt := (List.getElem?_eq_some_iff.mp hk).1
    simpa [hk, List.getElem?_range' hlt] using hget
  rw [← Array.getElem?_toList, ha, hid]
  simp [hk]

theorem translated_of_added (h : Added p.enumerations {} [p.root] [f] d) :
    p.Translated ⟨d.arena, f⟩ := by
  have hsize : d.arena.size = f.postorder.length := by
    simpa using h.size_eq
  have hids : f.postorder.map Field.id = List.range d.arena.size := by
    rw [hsize, List.range_eq_range']
    simpa using h.ids
  have ht : TranslatesAll p.enumerations [] p.root.preorder f.preorder := by
    simpa using h.translates
  have hlength : f.preorder.length = p.root.preorder.length := by
    simpa using congrArg List.length ht.heading_eq
  constructor
  · exact hsize.trans (f.postorder_perm.length_eq.trans hlength)
  · exact held_of_added h
  · exact hids
  · rw [← hids]
    exact (f.postorder_perm.map Field.id).symm
  · exact ht.heading_eq
  · intro i c hc
    obtain ⟨g, hg, hbound⟩ := ht.exists_getElem? hc
    rw [List.append_nil] at hbound
    exact ⟨g, hg, hbound.mono fun _ _ => lastNamed_of_lookup⟩

theorem Draft.sound_empty : Draft.Sound {} := nofun

theorem translated_of_build {l : Layout} (h : p.build = .ok l) : p.Translated l := by
  obtain ⟨⟨id, d⟩, ha, hb⟩ := exists_of_bind_eq_ok h
  obtain ⟨f, hf, hadded⟩ :=
    adds p.enumerations p.root {} id d Draft.sound_empty (eq_ok_of_mapError_eq_ok ha)
  obtain ⟨hid, hgrown⟩ := root_of_build hb
  have hroot : l.root = f := hgrown.eq_of_held (held_of_added hadded) (hid.trans hf.symm)
  have harena : l.arena = d.arena := (grown_of_build hb).1
  have hl : l = ⟨d.arena, f⟩ := by
    rw [← hroot, ← harena]
  rw [hl]
  exact translated_of_added hadded

theorem not_misdeclared {l : Layout} (h : p.Translated l) : ¬p.Misdeclared := by
  rintro ⟨i, c, hc, hmis⟩
  obtain ⟨g, -, ht⟩ := h.bound i c hc
  cases hmis with
  | length hl ways => exact ways (ht.length _ hl).1
  | enumeration hname missing =>
    have htable := ht.table
    rw [hname, Option.map_eq_some_iff] at htable
    obtain ⟨t, hsome, hn⟩ := htable
    exact missing t (ht.declared t hsome) hn
  | @lengthField l' name hl named missing =>
    obtain ⟨hways, length, -, hd⟩ := ht.length _ hl
    obtain ⟨id, -, init, s, rest, heq, hname, -⟩ := hd.bound_of_named hways named
    have hmem : (Field.scalar id s).heading ∈ (l.root.preorder.take i).map Field.heading := by
      rw [heq]
      exact List.mem_map_of_mem (List.mem_append_right _ List.mem_cons_self)
    rw [List.map_take, h.headings, ← List.map_take] at hmem
    obtain ⟨b, hb, hheading⟩ := List.mem_map.mp hmem
    have hkind : b.heading.kind = .scalar := congrArg Heading.kind hheading
    exact missing b hb hkind ((congrArg Heading.name hheading).trans hname)

theorem build_error_of_misdeclared (h : p.Misdeclared) : ∃ e, p.build = .error (.defect e) := by
  unfold ProductDefinition.build
  cases ha : p.root.add p.enumerations {} with
  | error e => exact ⟨e, rfl⟩
  | ok added =>
    obtain ⟨id, d⟩ := added
    obtain ⟨f, -, hadded⟩ := adds p.enumerations p.root {} id d Draft.sound_empty ha
    exact absurd h (not_misdeclared (translated_of_added hadded))

end Building

/-- Building is a faithful translation, and there is none for a definition whose lengths or names
mean nothing. -/
theorem build_translates (p : ProductDefinition) :
    (∀ l, p.build = .ok l → p.Translated l) ∧
      (p.Misdeclared → ∃ e, p.build = .error (.defect e)) :=
  ⟨fun _ h => translated_of_build h, build_error_of_misdeclared⟩

def temperatures : FieldDefinition :=
  .array "temps" [.scalar "count" .signed (some 8) { enumeration := some "power" } none none none]
    { lengthField := some "count" } [] none none

def housekeeping : ProductDefinition where
  enumerations := [.ofPairs "power" [(0, "OFF"), (1, "ON")]]
  root := .group "hk" none none [
    .scalar "count" .unsigned (some 8) {} none none none,
    .group "inner" none none [.scalar "count" .unsigned (some 16) {} none none none],
    temperatures]

def uncounted : ProductDefinition := { housekeeping with root := temperatures }

theorem build_translates_housekeeping :
    (∃ l, housekeeping.build = .ok l ∧ housekeeping.Translated l ∧
      l.root.preorder.filterMap Field.length? = [.ofField 1]) ∧
    ∃ e, uncounted.build = .error (.defect e) := by
  refine ⟨⟨_, rfl, (build_translates housekeeping).1 _ rfl, rfl⟩, ?_⟩
  apply (build_translates uncounted).2
  exact ⟨0, temperatures, rfl, .lengthField rfl rfl nofun⟩

end Telemetry.Layout
