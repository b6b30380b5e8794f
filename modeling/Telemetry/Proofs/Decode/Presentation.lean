import Telemetry.Proofs.Decode.Offers
import Telemetry.Proofs.Decode.Soundness
import Telemetry.Proofs.Layout.Presentation

namespace Telemetry.Decode

open Layout (Arena Scalar BitField Window Field Group Series Stream Entry frame frameData pairsArena
  build_frameArena bare_pairsArena)

structure Unswayed (o : Options) (f : Field) : Prop where
  plain : (field o f).Agrees Item.candidate? Item.candidate? (field {} f.bare)
  gathered : ∀ resolved,
    (gathered o resolved f).Agrees (Piece.through Item.candidate?) Item.candidate? (field {} f.bare)

theorem unswayed_of_plain {o : Options} {f : Field}
    (h : (field o f).Agrees Item.candidate? Item.candidate? (field {} f.bare))
    (hg : ∀ resolved, gathered o resolved f = (field o f).mapItems (·.map .item)) :
    Unswayed o f := by
  refine ⟨h, fun resolved => ?_⟩
  rw [hg]
  exact h.mapItems fun s => filterMap_through_items _

theorem candidates_scalarStep (o : Options) (id : Nat) (s : Scalar) (st : State) :
    (scalarStep o id s st).items.filterMap Item.candidate? =
      (readScalar o.channels id s st).items.filterMap Item.candidate? :=
  filterMap_scalarStep (fun _ => rfl) (fun _ _ _ => rfl) o id s st

theorem unswayed_scalar {o : Options} (ho : o.channels = true) (id : Nat) (s : Scalar) :
    Unswayed o (.scalar id s) := by
  have hr (st : State) : (readScalar o.channels id s st).state =
        (readScalar true id s.bare st).state ∧
      (readScalar o.channels id s st).items.filterMap Item.candidate? =
        (readScalar true id s.bare st).items.filterMap Item.candidate? := by
    have h := readScalar_attrs (q := Item.candidate?) (fun _ _ _ => rfl)
      (s := s) (a := s.attrs.bare) rfl true id st
    simp only [Reading.through, Prod.mk.injEq] at h
    rw [ho]
    exact ⟨h.2.1.symm, h.2.2.symm⟩
  constructor
  · intro st
    refine ⟨(hr st).1, ?_⟩
    simp only [field, Field.bare, candidates_scalarStep, (hr st).2]
  · intro resolved st
    refine ⟨(hr st).1, ?_⟩
    rw [filterMap_through_gathered_scalar fun _ => rfl]
    simp only [field, Field.bare, candidates_scalarStep, (hr st).2]

theorem unswayed_bitArray (o : Options) (id : Nat) (w : Window) (children : List Field) :
    Unswayed o (.bitArray id w children) := by
  constructor
  · intro st
    simp only [field, Field.bare, candidates_bitsStep]
    exact ⟨(state_readBits w _ st).trans (state_readBits w _ st).symm, trivial⟩
  · intro resolved st
    rw [filterMap_through_gathered_bitArray fun _ => rfl]
    simp only [field, Field.bare, candidates_bitsStep]
    exact ⟨(state_readBits w _ st).trans (state_readBits w _ st).symm, trivial⟩

section Children

variable {o : Options} {fs : List Field}

theorem forall₂_plain (h : ∀ f ∈ fs, Unswayed o f) :
    List.Forall₂ (Step.Agrees Item.candidate? Item.candidate?) (fields o fs)
      (fields {} (Field.bares fs)) := by
  rw [fields_eq_map, fields_eq_map, Field.bares_eq_map, List.map_map]
  exact forall₂_map_map fun f hf => (h f hf).plain

theorem forall₂_gathered (h : ∀ f ∈ fs, Unswayed o f) (resolved : Bool) :
    List.Forall₂ (Step.Agrees (Piece.through Item.candidate?) Item.candidate?)
      (gathers o resolved fs (fields o fs)) (fields {} (Field.bares fs)) := by
  rw [gathers_fields, fields_eq_map, Field.bares_eq_map, List.map_map]
  exact forall₂_map_map fun f hf => (h f hf).gathered resolved

end Children

theorem agrees_group {o : Options} {children : List Field} (h : ∀ c ∈ children, Unswayed o c)
    (id : Nat) (g : Group) : (field o (.group id g children)).Agrees Item.candidate?
      Item.candidate? (field {} (Field.group id g children).bare) := by
  have hbare : (field {} (Field.group id g children).bare).Agrees Item.candidate? Item.candidate?
      (Step.whileData (.notice ∘ .structureCut g.name) (fields {} (Field.bares children))) :=
    Step.agrees_between _ rfl rfl
  refine Step.Agrees.trans ?_ hbare.symm
  simp only [field, groupStep]
  split
  next =>
    apply (Step.agrees_between _ rfl rfl).trans
    exact Step.agrees_whileData (fun _ => rfl) (forall₂_plain h)
  next format _ =>
    have hc (n : Nat) : Piece.through Item.candidate? (.item (.notice (.structureCut g.name n))) =
        Item.candidate? (.notice (.structureCut g.name n)) := rfl
    have hw := Step.agrees_whileData hc (forall₂_gathered h false)
    exact hw.mapItems fun s => filterMap_through_gatherLines (fun _ _ => rfl) format 0 [] _

theorem agrees_repetitions {o : Options} {elements : List Field}
    (h : ∀ c ∈ elements, Unswayed o c) (s : Series) (count : Option Nat) :
    Step.Agrees Item.candidate? Item.candidate? (repetitions o s elements (fields o elements) count)
      (repetitions {} s.bare (Field.bares elements) (fields {} (Field.bares elements)) count) := by
  have hbare (index : Nat) : (labelled s.bare (fields {} (Field.bares elements)) index).Agrees
      Item.candidate? Item.candidate? (Step.sequence (fields {} (Field.bares elements))) :=
    Step.agrees_between _ rfl rfl
  have hp : s.bare.printFormat = none := rfl
  intro st
  simp only [repetitions, hp, List.filterMap_append, candidates_notices, List.append_nil]
  cases s.printFormat with
  | none =>
    have hlap (index : Nat) : (labelled s (fields o elements) index).Agrees Item.candidate?
        Item.candidate? (labelled s.bare (fields {} (Field.bares elements)) index) :=
      ((Step.agrees_between _ rfl rfl).trans (Step.agrees_sequence (forall₂_plain h))).trans
        (hbare index).symm
    simpa only [List.filterMap_append, candidates_notices, List.append_nil] using
      Laps.agrees_run hlap count st
  | some format =>
    have hpieces := Step.agrees_sequence (forall₂_gathered h (isUniform elements))
    have hlap (index : Nat) := hpieces.trans (hbare index).symm
    simpa only [lines, filterMap_through_gatherLines (q := Item.candidate?) (fun _ _ => rfl),
      List.filterMap_append, filterMap_through_items, candidates_notices, List.append_nil] using
      Laps.agrees_run hlap count st

theorem isPadding_bares (fs : List Field) : isPadding (Field.bares fs) = isPadding fs := by
  rw [Field.bares_eq_map]
  exact isPadding_map Field.name_bare fs

theorem agrees_elementsStep {o : Options} {elements : List Field}
    (h : ∀ c ∈ elements, Unswayed o c) (id : Nat) (s : Series) (start : Nat)
    (count : Option (Option Nat)) : Step.Agrees Item.candidate? Item.candidate?
      (elementsStep o id s elements (fields o elements) start count)
      (elementsStep {} id s.bare (Field.bares elements) (fields {} (Field.bares elements)) start
        count) := by
  cases count with
  | none => exact Step.agrees_tell rfl
  | some count =>
    intro st
    obtain ⟨hs, hi⟩ := agrees_repetitions h s count st
    simp only [elementsStep, isPadding_bares, paddingLength, Field.sizes_bares]
    split
    next => exact ⟨rfl, rfl⟩
    next =>
      refine ⟨hs, ?_⟩
      simp only [List.filterMap_append, List.filterMap_cons, Item.candidate?, hi,
        candidates_notices]

theorem agrees_array {o : Options} {elements : List Field} (h : ∀ c ∈ elements, Unswayed o c)
    (id : Nat) (s : Series) : (field o (.array id s elements)).Agrees Item.candidate?
      Item.candidate? (field {} (Field.array id s elements).bare) := by
  intro st
  have hc : readCount s.bare (Field.bares elements) st = readCount s elements st :=
    readCount_congr rfl rfl (Field.sizes_bares elements) st
  simp only [field, Field.bare, arrayStep, hc, List.filterMap_append, candidates_notices,
    List.nil_append]
  exact agrees_elementsStep h id s _ _ _

theorem unswayed {o : Options} (ho : o.channels = true) (f : Field) : Unswayed o f := by
  induction f using Field.induction with
  | scalar id s => exact unswayed_scalar ho id s
  | bit id b => exact unswayed_of_plain (Step.agrees_tell rfl) fun _ => rfl
  | group id g children ih => exact unswayed_of_plain (agrees_group ih id g) fun _ => rfl
  | array id s elements ih => exact unswayed_of_plain (agrees_array ih id s) fun _ => rfl
  | bitArray id w children _ => exact unswayed_bitArray o id w children
  | stream id s =>
    apply unswayed_of_plain _ fun _ => rfl
    intro st
    simp only [field, Field.bare, candidates_streamStep]
    exact ⟨rfl, trivial⟩

theorem agrees_of_bare_eq {o o' : Options} {f g : Field} (ho : o.channels = true)
    (ho' : o'.channels = true) (h : f.bare = g.bare) :
    (field o f).Agrees Item.candidate? Item.candidate? (field o' g) := by
  have hg := (unswayed ho' g).plain
  rw [← h] at hg
  exact (unswayed ho f).plain.trans hg.symm

/-- The bytes taken and the candidates offered are those of every layout of the same bare entries,
with whatever calculator; and without channels the same is shown, and nothing is offered. -/
theorem decode_of_bare_eq {arena : Arena} {root : Nat} {l : Layout}
    (hb : Layout.build arena root = .ok l) (k : Option Calculator) (data : List UInt8) :
    ∃ d, l.decode ⟨k, true⟩ data = .ok d ∧
      (∀ arena' m k', Layout.build arena' root = .ok m →
        arena'.map Entry.bare = arena.map Entry.bare →
        ∃ e, m.decode ⟨k', true⟩ data = .ok e ∧
          e.consumed = d.consumed ∧ e.candidates = d.candidates) ∧
      ∃ q, l.decode ⟨k, false⟩ data = .ok q ∧
        q.consumed = d.consumed ∧ q.events = d.events ∧ q.candidates = [] := by
  refine ⟨_, decode_of_build hb _ data, ?_, _, decode_of_build hb _ data, ?_⟩
  · intro arena' m k' hb' h
    obtain ⟨hid, hg⟩ := Layout.root_of_build hb
    obtain ⟨hid', hg'⟩ := Layout.root_of_build hb'
    have hbare := hg'.bare_eq h hg (hid'.trans hid.symm)
    have ha : (field ⟨k', true⟩ m.root).Agrees Item.candidate? Item.candidate?
        (field ⟨k, true⟩ l.root) := agrees_of_bare_eq rfl rfl hbare
    obtain ⟨hs, hi⟩ := ha (.start data)
    exact ⟨_, decode_of_build hb' _ data, congrArg (·.cursor.offset) hs, hi⟩
  · obtain ⟨hs, hi⟩ := (muted k l.root).plain (.start data)
    exact ⟨congrArg (·.cursor.offset) hs.symm, events_of_unoffered hi⟩

theorem decode_frame_pairs :
    ∃ m d, Layout.build pairsArena 8 = .ok m ∧ frame.decode ⟨none, true⟩ frameData = .ok d ∧
      ∃ e, m.decode ⟨some Calibration.polynomial, true⟩ frameData = .ok e ∧
        e.consumed = d.consumed ∧ e.candidates = d.candidates := by
  obtain ⟨d, hd, h, -⟩ := decode_of_bare_eq build_frameArena none frameData
  exact ⟨_, d, rfl, hd, h pairsArena _ _ rfl bare_pairsArena⟩

end Telemetry.Decode
