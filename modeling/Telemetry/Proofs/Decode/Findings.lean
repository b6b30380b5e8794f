import Mathlib.Data.List.Basic
import Telemetry.Proofs.Decode.Composition
import Telemetry.Proofs.Decode.FieldTruncation

/-!
What a decode finds in its product. The values that are shown and the candidates that are offered
are of the same findings, each of a leaf of the layout, in the order in which they are decoded.
-/

namespace Telemetry.Decode

open Layout (Arena Scalar BitField Window Field Group Series Stream frame frameData
  build_frameArena)

inductive Finding where
  | scalar (id : Nat) (s : Scalar) (dn : Value)
  | bit (b : BitField) (dn : Value)

def isTime (s : Scalar) : Bool :=
  s.dataType.base == .time || s.dataType.base == .float && s.dataType.bitLen == 64

def timeTold : Value → Option TagValue
  | .clock c => some (.clock c)
  | .unsigned n => some (.count n.toNat)
  | .float x => some (.seconds x)
  | .signed _ | .bool _ | .text _ => none

def unitTold (s : Scalar) : TagValue → TimeUnit
  | .seconds _ => .clock
  | .clock _ | .count _ => TimeUnit.ofDeclared s.attrs.unit

/-- The candidate of a scalar's data number: a time tag if the field is tagged, which takes a field
that tells a time, and else the raw number for the field's channel. -/
def candidateOf (s : Scalar) (dn : Value) : Option Candidate :=
  match s.tag with
  | some kind =>
    if isTime s then
      (timeTold dn).map fun t => .tag ⟨kind, t, unitTold s t, s.dataType.bitLen⟩
    else none
  | none => s.channel.map fun id => .channel ⟨id, dn, none⟩

def shownAs (calculator : Option Calculator) (name : String) (attrs : Attributes) (dn : Value) :
    Event :=
  .value name ((Resolution.resolve calculator attrs dn).shown attrs dn) attrs.unit

def Item.reading? : Item → Option (Nat × Scalar × Value)
  | .reading id s dn => some (id, s, dn)
  | _ => none

namespace Finding

def reading? : Finding → Option (Nat × Scalar × Value)
  | scalar id s dn => some (id, s, dn)
  | bit .. => none

def event (calculator : Option Calculator) : Finding → Event
  | scalar _ s dn => shownAs calculator s.name s.attrs dn
  | bit b dn => shownAs calculator b.name b.attrs dn

def Of (known : Field → Prop) : Finding → Prop
  | scalar id s dn => known (.scalar id s) ∧ (isTime s = true → (timeTold dn).isSome = true)
  | bit b _ => ∃ id, known (.bit id b)

def items (calculator : Option Calculator) : Finding → List Item
  | scalar id s dn => .reading id s dn :: ((candidateOf s dn).map Item.candidate).toList ++
      [.event (shownAs calculator s.name s.attrs dn)]
  | bit b dn => [.event (shownAs calculator b.name b.attrs dn)]

end Finding

def Item.told? : Item → Option Item
  | .reading id s dn => some (.reading id s dn)
  | .candidate c => some (.candidate c)
  | .event (.value name v unit) => some (.event (.value name v unit))
  | _ => none

variable {known : Field → Prop} {k : Option Calculator}

def Recounts (known : Field → Prop) (k : Option Calculator) (items : List Item) : Prop :=
  ∃ findings : List Finding, (∀ x ∈ findings, x.Of known) ∧
    items.filterMap Item.told? = findings.flatMap (Finding.items k)

theorem composable_recounts : Composable (Recounts known k) where
  nil := ⟨[], List.forall_mem_nil _, rfl⟩
  append := by
    rintro xs ys ⟨fs, hf, hx⟩ ⟨gs, hg, hy⟩
    refine ⟨fs ++ gs, List.forall_mem_append.mpr ⟨hf, hg⟩, ?_⟩
    rw [List.filterMap_append, hx, hy, List.flatMap_append]

theorem recounts_of_silent {items : List Item} (h : items.filterMap Item.told? = []) :
    Recounts known k items := ⟨[], List.forall_mem_nil _, h⟩

theorem recounts_notices (notices : List Notice) :
    Recounts known k (notices.map Item.notice) :=
  recounts_of_silent (filterMap_notices (fun _ => rfl) notices)

theorem recounts_of_finding {items : List Item} {x : Finding} (hx : x.Of known)
    (h : items.filterMap Item.told? = x.items k) : Recounts known k items :=
  ⟨[x], List.forall_mem_singleton.mpr hx, by rw [h, List.flatMap_singleton]⟩

theorem told_shown (channels : Bool) (name : String) (attrs : Attributes) (dn : Value) :
    (shown ⟨k, channels⟩ name attrs dn).filterMap Item.told? = [.event (shownAs k name attrs dn)] :=
  filterMap_shown (q := Item.told?) (fun _ => rfl) ⟨k, channels⟩ name attrs dn

theorem timeTold_of_leafValue {name : String} {t : DataType} {unit : Option String}
    {bytes : List UInt8} {dn : Value} (h : leafValue name t unit bytes = .ok (some dn)) :
    (t.base = .time → (∃ c, dn = .clock c) ∨ ∃ n, dn = .unsigned n) ∧
      (t.base = .float → ∃ x, dn = .float x) := by
  unfold leafValue at h
  split at h
  next => cases h
  next =>
    constructor
    · intro hb
      rw [hb] at h
      cases h
      unfold timeValue
      split
      · split
        · exact .inl ⟨_, rfl⟩
        · exact .inl ⟨_, rfl⟩
      · exact .inr ⟨_, rfl⟩
    · intro hb
      rw [hb] at h
      cases h
      exact ⟨_, rfl⟩

section Times

variable {s : Scalar} {dn : Value}
  (ht : s.dataType.base = .time → (∃ c, dn = .clock c) ∨ ∃ n, dn = .unsigned n)
  (hf : s.dataType.base = .float → ∃ x, dn = .float x)

include ht hf

theorem isSome_timeTold (h : isTime s = true) : (timeTold dn).isSome = true := by
  simp only [isTime, Bool.or_eq_true, Bool.and_eq_true, beq_iff_eq] at h
  obtain hb | ⟨hb, -⟩ := h
  · obtain ⟨c, rfl⟩ | ⟨n, rfl⟩ := ht hb <;> rfl
  · obtain ⟨x, rfl⟩ := hf hb
    rfl

theorem tagValue?_eq :
    tagValue? s dn = if isTime s then (timeTold dn).map (fun t => (t, unitTold s t)) else none := by
  cases hb : s.dataType.base with
  | time => obtain ⟨c, rfl⟩ | ⟨n, rfl⟩ := ht hb <;> simp [tagValue?, isTime, hb, timeTold, unitTold]
  | float =>
    obtain ⟨x, rfl⟩ := hf hb
    simp [tagValue?, isTime, hb, timeTold, unitTold]
  | _ => simp [tagValue?, isTime, hb]

theorem told_offer :
    (offer s dn).filterMap Item.told? = ((candidateOf s dn).map Item.candidate).toList := by
  unfold offer candidateOf
  cases s.tag with
  | some kind =>
    simp only [tagValue?_eq ht hf]
    cases isTime s with
    | true => cases timeTold dn <;> rfl
    | false => rfl
  | none => cases s.channel <;> rfl

end Times

theorem recounts_scalar {id : Nat} {s : Scalar} (hk : known (.scalar id s)) :
    (field ⟨k, true⟩ (.scalar id s)).Gives (Recounts known k) := by
  intro st
  simp only [field, scalarStep, readScalar_eq_reading, Scan.reading]
  cases (scan s st).bytes with
  | none => exact composable_recounts.append (recounts_notices _) composable_recounts.nil
  | some bytes =>
    dsimp only
    rw [List.append_assoc]
    apply composable_recounts.append (recounts_notices _)
    unfold readLeaf
    cases hv : leafValue s.name (effectiveType s bytes.length) s.attrs.unit bytes with
    | error e => exact recounts_of_silent rfl
    | ok v =>
      cases v with
      | none => exact recounts_of_silent rfl
      | some dn =>
        obtain ⟨htime, hfloat⟩ := timeTold_of_leafValue hv
        rw [base_effectiveType] at htime hfloat
        apply recounts_of_finding (x := .scalar id s dn) ⟨hk, isSome_timeTold htime hfloat⟩
        simp only [if_true, Option.map_some, Option.getD_some, List.filterMap_append,
          List.filterMap_cons, Item.told?, told_offer htime hfloat, told_shown, Finding.items]

theorem mem_of_mem_extractAll {bytes : List UInt8} {offset : Nat} {bits : List BitField} :
    ∀ p ∈ (extractAll bytes offset bits).1, p.1 ∈ bits := by
  induction bits generalizing offset with
  | nil => exact List.forall_mem_nil _
  | cons b bs ih =>
    rw [extractAll]
    split
    next => exact List.forall_mem_nil _
    next =>
      refine List.forall_mem_cons.mpr ?_
      exact ⟨List.mem_cons_self, fun p hp => List.mem_cons_of_mem _ (ih p hp)⟩

theorem mem_of_mem_readBits {w : Window} {bits : List BitField} {st : State} :
    ∀ p ∈ (readBits w bits st).values, p.1 ∈ bits := by
  unfold readBits
  split
  next => exact List.forall_mem_nil _
  next => exact mem_of_mem_extractAll

theorem recounts_bitArray {id : Nat} {w : Window} {children : List Field}
    (hk : ∀ c ∈ children, known c) :
    (field ⟨k, true⟩ (.bitArray id w children)).Gives (Recounts known k) := by
  intro st
  apply composable_recounts.append (recounts_notices _)
  apply composable_recounts.flatMap
  rintro ⟨b, dn⟩ hp
  obtain ⟨c, hc, hb⟩ := List.mem_filterMap.mp (mem_of_mem_readBits _ hp)
  cases c with
  | bit bid b' =>
    cases hb
    exact recounts_of_finding (x := .bit b dn) ⟨bid, hk _ hc⟩ (told_shown true b.name b.attrs dn)
  | scalar _ _ | group _ _ _ | array _ _ _ | bitArray _ _ _ | stream _ _ => cases hb

theorem recounts_stream {s : Stream} (hs : s.display ≠ .text) :
    (streamStep s).Gives (Recounts known k) := by
  intro st
  apply composable_recounts.append
  · unfold displayed
    split
    next => exact recounts_of_silent rfl
    next ht => exact absurd ht hs
    next =>
      apply recounts_of_silent
      rw [List.filterMap_map]
      exact List.filterMap_eq_nil_iff.mpr fun _ _ => rfl
  · split <;> exact recounts_of_silent rfl

theorem recounts_event {e : Event} (he : Item.told? (.event e) = none) :
    Recounts known k [.event e] := recounts_of_silent (List.filterMap_cons_none he)

theorem recounts_group {children : List Field}
    (h : ∀ c ∈ children, (field ⟨k, true⟩ c).Gives (Recounts known k)) {g : Group}
    (hg : g.printFormat = none) (id : Nat) :
    (field ⟨k, true⟩ (.group id g children)).Gives (Recounts known k) := by
  have hcut (n : Nat) : Recounts known k [.notice (.structureCut g.name n)] :=
    recounts_of_silent rfl
  have hw := Step.gives_whileData composable_recounts hcut (forall_mem_fields h)
  simp only [field, groupStep, hg]
  exact hw.between composable_recounts (recounts_event rfl) (recounts_event rfl)

theorem recounts_repetitions {elements : List Field}
    (h : ∀ c ∈ elements, (field ⟨k, true⟩ c).Gives (Recounts known k)) {s : Series}
    (hs : s.printFormat = none) (count : Option Nat) :
    Step.Gives (Recounts known k)
      (repetitions ⟨k, true⟩ s elements (fields ⟨k, true⟩ elements) count) := by
  have hseq := Step.gives_sequence composable_recounts (forall_mem_fields h)
  have hlap (index : Nat) :
      (labelled s (fields ⟨k, true⟩ elements) index).Gives (Recounts known k) :=
    hseq.between composable_recounts (recounts_event rfl) (recounts_event rfl)
  intro st
  simp only [repetitions, hs]
  exact composable_recounts.append (Laps.gives_run composable_recounts hlap count st)
    (recounts_notices _)

theorem recounts_array {elements : List Field}
    (h : ∀ c ∈ elements, (field ⟨k, true⟩ c).Gives (Recounts known k)) {s : Series}
    (hs : s.printFormat = none) (id : Nat) :
    (field ⟨k, true⟩ (.array id s elements)).Gives (Recounts known k) := by
  intro st
  apply composable_recounts.append (recounts_notices _)
  cases (readCount s elements st).count with
  | none => exact composable_recounts.nil
  | some count =>
    simp only [elementsStep]
    split
    next => exact composable_recounts.nil
    next =>
      have hr := recounts_repetitions h hs count (readCount s elements st).state
      have hopened := composable_recounts.append
        (recounts_event (e := .arrayStart s.name count) rfl) hr
      apply composable_recounts.append hopened
      exact composable_recounts.append (recounts_event (e := .arrayEnd s.name) rfl)
        (recounts_notices _)

/-- Nothing of the field itself, apart from those below it, is shown but values under the names of
leaves: there is no print format for several of them, and no stream of text. -/
def Unformatted : Field → Prop
  | .group _ g _ => g.printFormat = none
  | .array _ s _ => s.printFormat = none
  | .stream _ s => s.display ≠ .text
  | _ => True

instance (f : Field) : Decidable (Unformatted f) :=
  match f with
  | .group _ g _ => inferInstanceAs (Decidable (g.printFormat = none))
  | .array _ s _ => inferInstanceAs (Decidable (s.printFormat = none))
  | .stream _ s => inferInstanceAs (Decidable (s.display ≠ .text))
  | .scalar .. | .bit .. | .bitArray .. => .isTrue trivial

theorem recounts_field {f : Field} (hk : ∀ g ∈ f.preorder, known g)
    (hu : ∀ g ∈ f.preorder, Unformatted g) : (field ⟨k, true⟩ f).Gives (Recounts known k) := by
  induction f using Field.induction with
  | scalar id s => exact recounts_scalar (Field.forall_mem_preorder.mp hk).1
  | bit id b => exact Step.gives_tell (recounts_of_silent rfl)
  | group id g children ih =>
    obtain ⟨-, hkc⟩ := Field.forall_mem_preorder.mp hk
    obtain ⟨hg, huc⟩ := Field.forall_mem_preorder.mp hu
    exact recounts_group (fun c hc => ih c hc (hkc c hc) (huc c hc)) hg id
  | array id s elements ih =>
    obtain ⟨-, hkc⟩ := Field.forall_mem_preorder.mp hk
    obtain ⟨hs, huc⟩ := Field.forall_mem_preorder.mp hu
    exact recounts_array (fun c hc => ih c hc (hkc c hc) (huc c hc)) hs id
  | bitArray id w children _ =>
    obtain ⟨-, hkc⟩ := Field.forall_mem_preorder.mp hk
    exact recounts_bitArray fun c hc => (Field.forall_mem_preorder.mp (hkc c hc)).1
  | stream id s => exact recounts_stream (Field.forall_mem_preorder.mp hu).1

section Views

variable {γ : Type} {items : List Item} {findings : List Finding}

theorem filterMap_findings {q : Item → Option γ} {r : Finding → Option γ}
    (h : items.filterMap Item.told? = findings.flatMap (Finding.items k))
    (hq : ∀ i, i.told?.bind q = q i)
    (hr : ∀ x : Finding, (x.items k).filterMap q = (r x).toList) :
    items.filterMap q = findings.filterMap r := by
  have hview : items.filterMap q = (items.filterMap Item.told?).filterMap q := by
    rw [List.filterMap_filterMap]
    exact List.filterMap_congr fun i _ => (hq i).symm
  rw [hview, h, List.filterMap_flatMap, List.filterMap_eq_flatMap_toList]
  simp only [hr]

theorem told?_bind_of_quiet {q : Item → Option γ} (he : ∀ e, e.shown? = none → q (.event e) = none)
    (hh : ∀ h, q (.handoff h) = none) (hn : ∀ n, q (.notice n) = none)
    (hd : ∀ e, q (.defect e) = none) (i : Item) : i.told?.bind q = q i := by
  cases i with
  | reading id s dn => rfl
  | candidate c => rfl
  | handoff h => exact (hh h).symm
  | notice n => exact (hn n).symm
  | defect e => exact (hd e).symm
  | event e =>
    cases e with
    | value name v unit => rfl
    | _ => exact (he _ rfl).symm

theorem readings_eq (h : items.filterMap Item.told? = findings.flatMap (Finding.items k)) :
    items.filterMap Item.reading? = findings.filterMap Finding.reading? := by
  apply filterMap_findings h
  · exact told?_bind_of_quiet (fun _ _ => rfl) (fun _ => rfl) (fun _ => rfl) fun _ => rfl
  · rintro (⟨id, s, dn⟩ | ⟨b, dn⟩)
    · simp only [Finding.items]
      cases candidateOf s dn <;> rfl
    · rfl

theorem values_eq_map (h : items.filterMap Item.told? = findings.flatMap (Finding.items k))
    (consumed : Nat) : Decoded.values ⟨items, consumed⟩ = findings.map (Finding.event k) := by
  rw [values_eq, List.filterMap_filterMap, ← List.filterMap_eq_map]
  apply filterMap_findings h
  · apply told?_bind_of_quiet
    · intro e he
      cases e with
      | value name v unit => cases he
      | _ => rfl
    all_goals exact fun _ => rfl
  · rintro (⟨id, s, dn⟩ | ⟨b, dn⟩)
    · simp only [Finding.items]
      cases candidateOf s dn <;> rfl
    · rfl

theorem candidates_eq_filterMap
    (h : items.filterMap Item.told? = findings.flatMap (Finding.items k)) (consumed : Nat) :
    Decoded.candidates ⟨items, consumed⟩ =
      (findings.filterMap Finding.reading?).filterMap fun r => candidateOf r.2.1 r.2.2 := by
  rw [List.filterMap_filterMap]
  apply filterMap_findings h
  · exact told?_bind_of_quiet (fun _ _ => rfl) (fun _ => rfl) (fun _ => rfl) fun _ => rfl
  · rintro (⟨id, s, dn⟩ | ⟨b, dn⟩)
    · simp only [Finding.items, Finding.reading?, Option.bind_some]
      cases candidateOf s dn <;> rfl
    · rfl

end Views

/-- What is shown and what is offered for samples are of the same readings in the same order: the
values shown are those of the readings, and of bit fields among them, as they are resolved, and the
candidates are those of the readings as they are read. -/
theorem decode_findings {arena : Arena} {root : Nat} {l : Layout}
    (hb : Layout.build arena root = .ok l) (hu : ∀ f ∈ l.root.preorder, Unformatted f)
    (k : Option Calculator) (data : List UInt8) :
    ∃ d, l.decode ⟨k, true⟩ data = .ok d ∧ ∃ findings : List Finding,
      (∀ x ∈ findings, x.Of (· ∈ l.root.preorder)) ∧
      d.trace.filterMap Item.reading? = findings.filterMap Finding.reading? ∧
      d.values = findings.map (Finding.event k) ∧
      d.candidates =
        (findings.filterMap Finding.reading?).filterMap fun r => candidateOf r.2.1 r.2.2 := by
  obtain ⟨findings, hof, htold⟩ := recounts_field (k := k) (fun _ hg => hg) hu (.start data)
  exact ⟨_, decode_of_build hb _ data, findings, hof, readings_eq htold, values_eq_map htold _,
    candidates_eq_filterMap htold _⟩

theorem decode_frame_findings :
    ∃ d, frame.decode ⟨none, true⟩ frameData = .ok d ∧ ∃ findings : List Finding,
      d.values = findings.map (Finding.event none) ∧
      d.candidates =
        (findings.filterMap Finding.reading?).filterMap fun r => candidateOf r.2.1 r.2.2 := by
  obtain ⟨d, hd, findings, -, -, hvalues, hcandidates⟩ :=
    decode_findings build_frameArena (by decide) none frameData
  exact ⟨d, hd, findings, hvalues, hcandidates⟩

end Telemetry.Decode
