import Telemetry.Proofs.Decode.Agreement
import Telemetry.Proofs.Decode.Grouping
import Telemetry.Proofs.Layout.Presentation

namespace Telemetry

def Attributes.plain (resolved : Bool) (a : Attributes) : Attributes :=
  if resolved then { a with printFormat := none } else a.bare

theorem Attributes.unit_plain (resolved : Bool) (a : Attributes) :
    (a.plain resolved).unit = a.unit := by
  cases resolved <;> rfl

theorem Resolution.shown_plain (calculator : Option Calculator) (resolved : Bool) (a : Attributes)
    (dn : Value) : (resolve calculator (a.plain resolved) dn).shown (a.plain resolved) dn =
      if resolved then (resolve calculator a dn).value dn else dn := by
  cases resolved with
  | true => rfl
  | false =>
    have hr : resolve calculator a.bare dn = .unchanged := ite_self _
    rw [if_neg Bool.false_ne_true, Attributes.plain, if_neg Bool.false_ne_true, hr]
    rfl

namespace Layout

def Scalar.plain (resolved : Bool) (s : Scalar) : Scalar :=
  { s with attrs := s.attrs.plain resolved }

def BitField.plain (resolved : Bool) (b : BitField) : BitField :=
  { b with attrs := b.attrs.plain resolved }

namespace Field

def plainBit (resolved : Bool) : Field → Field
  | bit id b => bit id (b.plain resolved)
  | f => f

def plainLeaf (resolved : Bool) : Field → Field
  | scalar id s => scalar id (s.plain resolved)
  | bitArray id w children => bitArray id w (children.map (plainBit resolved))
  | f => f

def isLeaf : Field → Bool
  | scalar .. | bitArray .. => true
  | _ => false

theorem size_plainLeaf (resolved : Bool) (f : Field) : (f.plainLeaf resolved).size = f.size := by
  cases f <;> rfl

theorem name_plainLeaf (resolved : Bool) (f : Field) : (f.plainLeaf resolved).name = f.name := by
  cases f <;> rfl

theorem filterMap_bit?_plainBit (resolved : Bool) (children : List Field) :
    (children.map (plainBit resolved)).filterMap bit? =
      (children.filterMap bit?).map (BitField.plain resolved) := by
  rw [List.filterMap_map, List.map_filterMap]
  exact List.filterMap_congr fun f _ => by cases f <;> rfl

end Field
end Layout

namespace Decode

open Layout (Scalar BitField Window Field Group Series readings frameData pairFormat)

/-- A structure or array without its print format, whose values are shown as the format takes them:
as data numbers, or resolved if they are of the only scalar of an array. -/
def unformatted : Field → Field
  | .group id g children =>
    .group id { g with printFormat := none } (children.map (Field.plainLeaf false))
  | .array id s elements =>
    .array id { s with printFormat := none } (elements.map (Field.plainLeaf (isUniform elements)))
  | f => f

inductive Formatted (format : PrintFormat) : Field → Prop where
  | group {id : Nat} {g : Group} {children : List Field} (shown : g.printFormat = some format)
      (leaves : ∀ c ∈ children, c.isLeaf = true) : Formatted format (.group id g children)
  | array {id : Nat} {s : Series} {elements : List Field} (shown : s.printFormat = some format)
      (kept : isPadding elements = false) (leaves : ∀ c ∈ elements, c.isLeaf = true) :
      Formatted format (.array id s elements)

def Item.value? (i : Item) : Option Value := i.event?.bind fun e => e.shown?.map Prod.snd

def Item.line? (i : Item) : Option (Nat × String) := i.event?.bind Event.formatted?

def Step.placed (step : Step Item) : Step (Nat × Value) := fun s =>
  let y := step s
  ⟨(y.items.filterMap Item.value?).map (s.cursor.offset, ·), y.state⟩

/-- The values that a structure or array shows, each with the offset where decoding of the field
that gives it begins. -/
def placedValues (o : Options) : Field → Step (Nat × Value)
  | .group _ _ children => Step.withinData (children.map fun c => (field o c).placed)
  | .array _ s elements => fun st =>
    let c := readCount s elements st
    match c.count with
    | none => ⟨[], c.state⟩
    | some count =>
      let lap := Step.sequence (elements.map fun c => (field o c).placed)
      let laps := Laps.run (fun _ => lap) count c.state
      ⟨laps.runs.flatten, laps.state⟩
  | f => (field o f).placed

theorem filterMap_bind_event? {γ : Type} (k : Event → Option γ) (items : List Item) :
    items.filterMap (fun i => i.event?.bind k) = (items.filterMap Item.event?).filterMap k :=
  List.filterMap_filterMap.symm

theorem visible_items (items : List Item) :
    (items.map Piece.item).filterMap Piece.visible? = (items.filterMap Item.event?).map .inr := by
  rw [List.filterMap_map, List.map_filterMap]
  rfl

theorem events_readLeaf (channels : Bool) (id : Nat) (s : Scalar) (bytes : List UInt8)
    (past : State) : (readLeaf channels id s bytes past).items.filterMap Item.event? = [] := by
  unfold readLeaf
  split
  next => rfl
  next => rfl
  next dn _ =>
    cases channels with
    | true => exact filterMap_offer (fun _ => rfl) (fun _ => rfl) s dn
    | false => rfl

theorem events_notices (notices : List Notice) :
    (notices.map Item.notice).filterMap Item.event? = [] := filterMap_notices (fun _ => rfl) notices

theorem events_readScalar (channels : Bool) (id : Nat) (s : Scalar) (st : State) :
    (readScalar channels id s st).items.filterMap Item.event? = [] := by
  rw [readScalar_eq_reading]
  unfold Scan.reading
  split
  next => exact events_notices _
  next => rw [List.filterMap_append, events_notices, events_readLeaf, List.nil_append]

theorem filterMap_inl_placed (offset : Nat) (values : List Value) :
    (values.map (offset, ·)).filterMap (some ∘ (.inl : Nat × Value → (Nat × Value) ⊕ Event)) =
      values.map fun v => .inl (offset, v) := by
  rw [List.filterMap_eq_map, List.map_map]
  rfl

theorem values_shown (o : Options) (resolved : Bool) (name : String) (a : Attributes) (dn : Value) :
    (shown o name (a.plain resolved) dn).filterMap Item.value? =
      [if resolved then (Resolution.resolve o.calculator a dn).value dn else dn] := by
  rw [filterMap_shown (q := Item.value?) fun _ => rfl, Resolution.shown_plain]
  rfl

theorem visible_sampled (o : Options) (resolved : Bool) (offset : Nat) (name : String)
    (a : Attributes) (dn : Value) :
    (sampled o resolved offset name a dn).filterMap Piece.visible? =
      ((shown o name (a.plain resolved) dn).filterMap Item.value?).map
        fun v => .inl (offset, v) := by
  rw [values_shown]
  cases resolved with
  | true =>
    have hn (notices : List Notice) :
        (notices.map (Piece.item ∘ Item.notice)).filterMap Piece.visible? = [] := by
      rw [← List.map_map, visible_items, events_notices]
      rfl
    simp only [sampled, if_true, List.filterMap_append, hn]
    rfl
  | false => rfl

theorem values_of_events_eq_nil {items : List Item} (h : items.filterMap Item.event? = []) :
    items.filterMap Item.value? = [] := by
  have hv := filterMap_bind_event? (fun e => e.shown?.map Prod.snd) items
  rwa [h, List.filterMap_nil] at hv

theorem agrees_gathered_scalar (o : Options) (resolved : Bool) (id : Nat) (s : Scalar) :
    (gathered o resolved (.scalar id s)).Agrees Piece.visible? (some ∘ .inl)
      (field o ((Field.scalar id s).plainLeaf resolved)).placed := by
  intro st
  have h := readScalar_attrs (q := Item.event?) (fun _ _ _ => rfl)
    (Attributes.unit_plain resolved s.attrs) o.channels id st
  simp only [Reading.through, Prod.mk.injEq] at h
  obtain ⟨hdn, hs, -⟩ := h
  refine ⟨hs.symm, ?_⟩
  have hplain := values_of_events_eq_nil (events_readScalar o.channels id (s.plain resolved) st)
  simp only [gathered, gather, Field.plainLeaf, field, scalarStep, Step.placed, Scalar.plain,
    List.filterMap_append, visible_items, events_readScalar, List.map_nil, List.nil_append, hdn]
  rw [Scalar.plain] at hplain
  rw [hplain]
  cases (readScalar o.channels id s st).dn with
  | none => rfl
  | some dn =>
    simp only [Option.map_some, Option.getD_some, visible_sampled, List.nil_append,
      filterMap_inl_placed]

theorem extractAll_plain (resolved : Bool) (bytes : List UInt8) (offset : Nat)
    (bits : List BitField) :
    (extractAll bytes offset (bits.map (BitField.plain resolved))).1 =
      (extractAll bytes offset bits).1.map (Prod.map (BitField.plain resolved) id) := by
  induction bits generalizing offset with
  | nil => rfl
  | cons b bs ih =>
    simp only [List.map_cons, extractAll, BitField.plain] at ih ⊢
    split
    next => rfl
    next n _ => rw [ih]; rfl

theorem values_readBits_plain (resolved : Bool) (w : Window) (bits : List BitField) (st : State) :
    (readBits w (bits.map (BitField.plain resolved)) st).values =
      (readBits w bits st).values.map (Prod.map (BitField.plain resolved) id) := by
  unfold readBits
  split
  next => rfl
  next bytes _ _ => exact extractAll_plain resolved bytes 0 bits

theorem agrees_gathered_bitArray (o : Options) (resolved : Bool) (id : Nat) (w : Window)
    (children : List Field) :
    (gathered o resolved (.bitArray id w children)).Agrees Piece.visible? (some ∘ .inl)
      (field o ((Field.bitArray id w children).plainLeaf resolved)).placed := by
  intro st
  refine ⟨(state_readBits w _ st).trans (state_readBits w _ st).symm, ?_⟩
  have hn (notices : List Notice) :
      (notices.map (Piece.item ∘ Item.notice)).filterMap Piece.visible? = [] := by
    rw [← List.map_map, visible_items, events_notices]
    rfl
  simp only [gathered, gather, Field.plainLeaf, field, bitsStep, Step.placed,
    Field.filterMap_bit?_plainBit, values_readBits_plain, List.filterMap_append, hn,
    values_of_events_eq_nil (events_notices _), List.nil_append, List.filterMap_flatMap,
    List.flatMap_map, visible_sampled, filterMap_inl_placed, List.map_flatMap]
  rfl

theorem agrees_gathered {f : Field} (h : f.isLeaf = true) (o : Options) (resolved : Bool) :
    (gathered o resolved f).Agrees Piece.visible? (some ∘ .inl)
      (field o (f.plainLeaf resolved)).placed := by
  cases f with
  | scalar id s => exact agrees_gathered_scalar o resolved id s
  | bitArray id w children => exact agrees_gathered_bitArray o resolved id w children
  | bit id b | group id g cs | array id s cs | stream id s => cases h

theorem forall₂_gathered_placed {fs : List Field} (h : ∀ f ∈ fs, f.isLeaf = true) (o : Options)
    (resolved : Bool) : List.Forall₂ (Step.Agrees Piece.visible? (some ∘ .inl))
      (gathers o resolved fs (fields o fs))
      ((fs.map (Field.plainLeaf resolved)).map fun c => (field o c).placed) := by
  rw [gathers_fields, List.map_map]
  exact forall₂_map_map fun f hf => agrees_gathered (h f hf) o resolved

theorem agrees_placed (step : Step Item) :
    step.Agrees Item.value? (some ∘ Prod.snd) step.placed := by
  intro st
  refine ⟨rfl, ?_⟩
  rw [Step.placed, List.filterMap_map]
  exact List.filterMap_some.symm

theorem forall₂_placed (o : Options) (fs : List Field) :
    List.Forall₂ (Step.Agrees Item.value? (some ∘ Prod.snd)) (fields o fs)
      (fs.map fun c => (field o c).placed) := by
  rw [fields_eq_map]
  exact forall₂_map_map fun f _ => agrees_placed (field o f)

theorem agrees_group_placed {g : Group} (hg : g.printFormat = none) (o : Options) (id : Nat)
    (children : List Field) : (field o (.group id g children)).Agrees Item.value?
      (some ∘ Prod.snd) (placedValues o (.group id g children)) := by
  simp only [field, groupStep, hg, placedValues]
  apply (Step.agrees_between _ rfl rfl).trans
  exact Step.agrees_withinData (fun _ => rfl) (forall₂_placed o children)

section Arrays

variable {γ : Type} {q : Item → Option γ} {s : Series} {elements : List Field}

theorem filterMap_elementsStep (hn : ∀ n, q (.notice n) = none)
    (hs : ∀ name count, q (.event (.arrayStart name count)) = none)
    (he : ∀ name, q (.event (.arrayEnd name)) = none) (hp : isPadding elements = false)
    (o : Options) (id : Nat) (plain : List (Step Item)) (start : Nat) (count : Option Nat)
    (st : State) :
    (elementsStep o id s elements plain start (some count) st).items.filterMap q =
      (repetitions o s elements plain count st).items.filterMap q := by
  simp only [elementsStep, hp, Bool.false_eq_true, if_false, List.filterMap_append,
    List.filterMap_cons, hs, he, filterMap_notices hn, List.append_nil]

theorem state_elementsStep (hp : isPadding elements = false) (o : Options) (id : Nat)
    (plain : List (Step Item)) (start : Nat) (count : Option Nat) (st : State) :
    (elementsStep o id s elements plain start (some count) st).state =
      (repetitions o s elements plain count st).state := by
  simp only [elementsStep, hp, Bool.false_eq_true, if_false]

theorem agrees_repetitions_placed (hs : s.printFormat = none) (o : Options) (count : Option Nat)
    (st : State) :
    let y := repetitions o s elements (fields o elements) count st
    let lap := Step.sequence (elements.map fun c => (field o c).placed)
    let laps := Laps.run (fun _ => lap) count st
    y.state = laps.state ∧
      y.items.filterMap Item.value? = laps.runs.flatten.filterMap (some ∘ Prod.snd) := by
  have hlap (index : Nat) : (labelled s (fields o elements) index).Agrees Item.value?
      (some ∘ Prod.snd) (Step.sequence (elements.map fun c => (field o c).placed)) :=
    (Step.agrees_between _ rfl rfl).trans (Step.agrees_sequence (forall₂_placed o elements))
  obtain ⟨hst, hi⟩ := Laps.agrees_run hlap count st
  simp only [repetitions, hs, List.filterMap_append,
    filterMap_notices (q := Item.value?) fun _ => rfl, List.append_nil]
  exact ⟨hst, hi⟩

theorem agrees_array_placed (hs : s.printFormat = none) (hp : isPadding elements = false)
    (o : Options) (id : Nat) : (field o (.array id s elements)).Agrees Item.value?
      (some ∘ Prod.snd) (placedValues o (.array id s elements)) := by
  intro st
  simp only [field, arrayStep, placedValues, List.filterMap_append,
    filterMap_notices (q := Item.value?) fun _ => rfl, List.nil_append]
  cases (readCount s elements st).count with
  | none => exact ⟨rfl, rfl⟩
  | some count =>
    obtain ⟨hst, hi⟩ := agrees_repetitions_placed hs o count (readCount s elements st).state
    rw [state_elementsStep hp, filterMap_elementsStep (q := Item.value?) (fun _ => rfl)
      (fun _ _ => rfl) (fun _ => rfl) hp]
    exact ⟨hst, hi⟩

theorem events_repetitions {format : PrintFormat} (hs : s.printFormat = some format)
    (leaves : ∀ c ∈ elements, c.isLeaf = true) (o : Options) (count : Option Nat) (st : State) :
    let y := repetitions o s elements (fields o elements) count st
    let plain := elements.map (Field.plainLeaf (isUniform elements))
    let lap := Step.sequence (plain.map fun c => (field o c).placed)
    let laps := Laps.run (fun _ => lap) count st
    y.state = laps.state ∧ y.items.filterMap Item.event? =
      (groupLines format laps.runs.flatten).map fun l => .line l.1 l.2 := by
  have hlap := Step.agrees_sequence (forall₂_gathered_placed leaves o (isUniform elements))
  obtain ⟨hst, hi⟩ := Laps.agrees_run (fun _ => hlap) count st
  simp only [repetitions, hs]
  refine ⟨hst, events_lines ?_ format⟩
  rw [List.filterMap_append, hi, visible_items, events_notices, List.map_nil, List.append_nil,
    List.filterMap_eq_map]

end Arrays

section Formatted

variable {format : PrintFormat} {f : Field}

theorem Formatted.agrees_placed (h : Formatted format f) (o : Options) :
    (field o (unformatted f)).Agrees Item.value? (some ∘ Prod.snd)
      (placedValues o (unformatted f)) := by
  cases h with
  | group shown leaves => exact agrees_group_placed rfl o _ _
  | array shown kept leaves =>
    exact agrees_array_placed rfl ((isPadding_map (Field.name_plainLeaf _) _).trans kept) o _

theorem Formatted.events (h : Formatted format f) {γ : Type} {k : Event → Option γ}
    (hs : ∀ name count, k (.arrayStart name count) = none) (he : ∀ name, k (.arrayEnd name) = none)
    (o : Options) (st : State) :
    let placed := placedValues o (unformatted f) st
    (field o f st).state = placed.state ∧
      (field o f st).items.filterMap (fun i => i.event?.bind k) =
        (groupLines format placed.items).filterMap fun l => k (.line l.1 l.2) := by
  cases h with
  | @group id g children shown leaves =>
    have hcut (n : Nat) :
        Piece.visible? ((.item ∘ .notice ∘ .structureCut g.name : Nat → Piece) n) = none := rfl
    obtain ⟨hst, hi⟩ := Step.agrees_withinData hcut (forall₂_gathered_placed leaves o false) st
    rw [List.filterMap_eq_map] at hi
    simp only [field, groupStep, shown, Step.mapItems]
    rw [filterMap_bind_event?, events_lines hi, List.filterMap_map]
    exact ⟨hst, rfl⟩
  | @array id s elements shown kept leaves =>
    -- the number before the elements does not depend on how their values are shown
    have hc : readCount { s with printFormat := none }
        (elements.map (Field.plainLeaf (isUniform elements))) st = readCount s elements st :=
      readCount_congr rfl rfl (Field.sizes_map fun f _ => f.size_plainLeaf _) st
    simp only [field, arrayStep, unformatted, placedValues, hc, List.filterMap_append,
      filterMap_notices (q := fun i => i.event?.bind k) fun _ => rfl, List.nil_append]
    cases (readCount s elements st).count with
    | none => exact ⟨rfl, by rw [groupLines_nil]; rfl⟩
    | some count =>
      obtain ⟨hst, hi⟩ := events_repetitions shown leaves o count (readCount s elements st).state
      rw [state_elementsStep kept, filterMap_elementsStep (q := fun i => i.event?.bind k)
        (fun _ => rfl) hs he kept, filterMap_bind_event?, hi, List.filterMap_map]
      exact ⟨hst, rfl⟩

/-- A formatted structure or array shows only lines: those of the values that it shows without its
format, each value once and in its place. It takes the same bytes. -/
theorem lines_of_formatted (h : Formatted format f) (o : Options) (st : State) :
    let placed := (placedValues o (unformatted f) st).items
    (field o (unformatted f) st).items.filterMap Item.value? = placed.map Prod.snd ∧
      (field o f st).items.filterMap Item.value? = [] ∧
      (field o f st).items.filterMap Item.line? = groupLines format placed ∧
      (field o f st).state = (field o (unformatted f) st).state := by
  obtain ⟨hplain, hvalues⟩ := h.agrees_placed o st
  obtain ⟨hst, hnone⟩ := h.events (k := fun e => e.shown?.map Prod.snd) (fun _ _ => rfl)
    (fun _ => rfl) o st
  obtain ⟨-, hlines⟩ := h.events (k := Event.formatted?) (fun _ _ => rfl) (fun _ => rfl) o st
  refine ⟨?_, ?_, ?_, hst.trans hplain.symm⟩
  · rw [hvalues, List.filterMap_eq_map]
  · exact hnone.trans (List.filterMap_eq_nil_iff.mpr fun _ _ => rfl)
  · exact hlines.trans List.filterMap_some

end Formatted

def pairedReadings : Field :=
  .array 5 { name := "readings", length := .fixed 3, printFormat := some pairFormat }
    readings.children

theorem lines_of_pairedReadings :
    ∃ placed, placed.map Prod.fst = [0, 2, 2, 4, 6, 6, 8, 10, 10] ∧
      (field {} pairedReadings (.start frameData)).items.filterMap Item.line? =
        groupLines pairFormat placed := by
  have h : Formatted pairFormat pairedReadings := .array rfl rfl (by decide)
  exact ⟨_, by decide +kernel, (lines_of_formatted h {} (.start frameData)).2.2.1⟩

example : (field {} pairedReadings (.start frameData)).items.filterMap Item.line? =
    [(0, "263 0"), (2, "14 1799"), (6, "0 14"), (8, "1799 0"), (10, "14 ")] := by
  decide +kernel

end Decode
end Telemetry
