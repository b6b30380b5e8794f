import Telemetry.Proofs.Decode.Agreement

namespace Telemetry.Decode

open Layout (Scalar BitField Window Field Group Series Stream)

theorem candidates_notices (notices : List Notice) :
    (notices.map Item.notice).filterMap Item.candidate? = [] :=
  filterMap_notices (fun _ => rfl) notices

theorem candidates_shown (o : Options) (name : String) (attrs : Attributes) (dn : Value) :
    (shown o name attrs dn).filterMap Item.candidate? = [] :=
  filterMap_shown (fun _ => rfl) o name attrs dn

theorem candidates_bitsStep (o : Options) (w : Window) (bits : List BitField) (st : State) :
    (bitsStep o w bits st).items.filterMap Item.candidate? = [] :=
  filterMap_bitsStep (fun _ => rfl) (fun _ _ _ => rfl) o w bits st

theorem candidates_streamStep (s : Stream) (st : State) :
    (streamStep s st).items.filterMap Item.candidate? = [] :=
  filterMap_streamStep (fun _ _ _ => rfl) (fun _ _ => rfl) (fun _ => rfl) s st

def Item.unnoticed? : Item → Option Item
  | .notice _ => none
  | i => some i

def Item.unoffered? : Item → Option Item
  | .notice _ | .candidate _ => none
  | i => some i

def Piece.keeping (k : Item → Option Item) : Piece → Option Piece
  | .item i => (k i).map .item
  | .sample offset v => some (.sample offset v)

theorem unoffered_of_candidates {items : List Item} (h : items.filterMap Item.candidate? = []) :
    items.filterMap Item.unoffered? = items.filterMap Item.unnoticed? := by
  apply List.filterMap_congr
  intro i hi
  cases i with
  | candidate c => cases List.filterMap_eq_nil_iff.mp h _ hi
  | _ => rfl

theorem keeping_of_candidates {pieces : List Piece}
    (h : pieces.filterMap (Piece.through Item.candidate?) = []) :
    pieces.filterMap (Piece.keeping Item.unoffered?) =
      pieces.filterMap (Piece.keeping Item.unnoticed?) := by
  apply List.filterMap_congr
  intro a ha
  cases a with
  | sample offset v => rfl
  | item i =>
    cases i with
    | candidate c => cases List.filterMap_eq_nil_iff.mp h _ ha
    | _ => rfl

theorem unoffered_notices (notices : List Notice) :
    (notices.map Item.notice).filterMap Item.unoffered? = [] :=
  filterMap_notices (fun _ => rfl) notices

theorem unnoticed_notices (notices : List Notice) :
    (notices.map Item.notice).filterMap Item.unnoticed? = [] :=
  filterMap_notices (fun _ => rfl) notices

theorem filterMap_keeping_items (k : Item → Option Item) (items : List Item) :
    (items.map Piece.item).filterMap (Piece.keeping k) = (items.filterMap k).map .item := by
  rw [List.filterMap_map, List.map_filterMap]
  rfl

theorem filterMap_gatherLines {k : Item → Option Item}
    (hk : ∀ offset text, k (.event (.line offset text)) = some (.event (.line offset text)))
    (f : PrintFormat) (offset : Nat) (values : List Value) (pieces : List Piece) :
    (gatherLines f offset values pieces).filterMap k =
      gatherLines f offset values (pieces.filterMap (Piece.keeping k)) := by
  fun_induction gatherLines f offset values pieces with
  | case1 offset values =>
    simp only [List.filterMap_nil, gatherLines, lastLine]
    split
    next => rfl
    next => rw [List.filterMap_cons_some (hk _ _), List.filterMap_nil]
  | case2 offset values i rest ih =>
    simp only [List.filterMap_cons, Piece.keeping, ih]
    cases k i <;> rfl
  | case3 offset values o v rest first line hfull ih =>
    simp only [List.filterMap_cons, hk, ih, Piece.keeping, gatherLines]
    exact (if_pos hfull).symm
  | case4 offset values o v rest first line hfull ih =>
    simp only [List.filterMap_cons, ih, Piece.keeping, gatherLines]
    exact (if_neg hfull).symm

theorem filterMap_lines_unoffered (f : PrintFormat) (pieces : List Piece) :
    (lines f pieces).filterMap Item.unoffered? =
      lines f (pieces.filterMap (Piece.keeping Item.unoffered?)) :=
  filterMap_gatherLines (k := Item.unoffered?) (fun _ _ => rfl) f 0 [] pieces

theorem filterMap_lines_unnoticed (f : PrintFormat) (pieces : List Piece) :
    (lines f pieces).filterMap Item.unnoticed? =
      lines f (pieces.filterMap (Piece.keeping Item.unnoticed?)) :=
  filterMap_gatherLines (k := Item.unnoticed?) (fun _ _ => rfl) f 0 [] pieces

theorem Step.Agrees.lines {a b : Step Piece} (h : a.Agrees (Piece.keeping Item.unoffered?)
    (Piece.keeping Item.unnoticed?) b) (f : PrintFormat) :
    (a.mapItems (lines f)).Agrees Item.unoffered? Item.unnoticed? (b.mapItems (lines f)) := by
  intro s
  refine ⟨(h s).1, ?_⟩
  simp only [Step.mapItems, filterMap_lines_unoffered, filterMap_lines_unnoticed, (h s).2]

structure Muted (k : Option Calculator) (f : Field) : Prop where
  plain : (field ⟨k, true⟩ f).Agrees Item.unoffered? Item.unnoticed? (field ⟨k, false⟩ f)
  gathered : ∀ resolved, (gathered ⟨k, true⟩ resolved f).Agrees (Piece.keeping Item.unoffered?)
    (Piece.keeping Item.unnoticed?) (gathered ⟨k, false⟩ resolved f)

theorem Step.Agrees.between {a b : Step Item} (h : a.Agrees Item.unoffered? Item.unnoticed? b)
    (opening closing : Event) :
    ((tell [.event opening]).andThen (a.andThen (tell [.event closing]))).Agrees
      Item.unoffered? Item.unnoticed?
      ((tell [.event opening]).andThen (b.andThen (tell [.event closing]))) := by
  have ht (e : Event) : (tell [Item.event e]).Agrees Item.unoffered? Item.unnoticed?
      (tell [.event e]) := agrees_tell rfl
  exact (ht opening).andThen (h.andThen (ht closing))

theorem unoffered_offer (s : Scalar) (dn : Value) :
    (offer s dn).filterMap Item.unoffered? = [] :=
  filterMap_offer (fun _ => rfl) (fun _ => rfl) s dn

theorem readLeaf_muted (id : Nat) (s : Scalar) (bytes : List UInt8) (past : State) :
    (readLeaf true id s bytes past).through Item.unoffered? =
      (readLeaf false id s bytes past).through Item.unnoticed? := by
  unfold readLeaf
  split
  next => rfl
  next => rfl
  next => simp [Reading.through, Item.unoffered?, Item.unnoticed?, unoffered_offer]

theorem readScalar_muted (id : Nat) (s : Scalar) (st : State) :
    (readScalar true id s st).through Item.unoffered? =
      (readScalar false id s st).through Item.unnoticed? := by
  rw [readScalar_eq_reading, readScalar_eq_reading]
  apply Scan.through_reading
  · intro notices
    rw [unoffered_notices, unnoticed_notices]
  · intro bytes
    exact readLeaf_muted id s bytes _

theorem muted_scalar (k : Option Calculator) (id : Nat) (s : Scalar) :
    Muted k (.scalar id s) := by
  have hr (st : State) := readScalar_muted id s st
  simp only [Reading.through, Prod.mk.injEq] at hr
  constructor
  · intro st
    obtain ⟨hdn, hs, hi⟩ := hr st
    refine ⟨hs, ?_⟩
    simp only [field, scalarStep, List.filterMap_append, hi, hdn]
    congr 1
    cases (readScalar false id s st).dn with
    | none => rfl
    | some dn => exact unoffered_of_candidates (candidates_shown _ _ _ dn)
  · intro resolved st
    obtain ⟨hdn, hs, hi⟩ := hr st
    refine ⟨hs, ?_⟩
    simp only [gathered, gather, List.filterMap_append, filterMap_keeping_items, hi, hdn]
    congr 1
    cases (readScalar false id s st).dn with
    | none => rfl
    | some dn =>
      exact keeping_of_candidates (filterMap_through_sampled (fun _ => rfl) _ resolved _ _ _ dn)

theorem muted_of_plain {k : Option Calculator} {f : Field}
    (h : (field ⟨k, true⟩ f).Agrees Item.unoffered? Item.unnoticed? (field ⟨k, false⟩ f))
    (hg : ∀ c resolved, gathered ⟨k, c⟩ resolved f = (field ⟨k, c⟩ f).mapItems (·.map .item)) :
    Muted k f := by
  refine ⟨h, fun resolved st => ?_⟩
  rw [hg, hg]
  refine ⟨(h st).1, ?_⟩
  simp only [Step.mapItems, filterMap_keeping_items, (h st).2]

section Children

variable {k : Option Calculator} {fs : List Field}

theorem forall₂_muted (h : ∀ f ∈ fs, Muted k f) :
    List.Forall₂ (Step.Agrees Item.unoffered? Item.unnoticed?) (fields ⟨k, true⟩ fs)
      (fields ⟨k, false⟩ fs) := by
  rw [fields_eq_map, fields_eq_map]
  exact forall₂_map_map fun f hf => (h f hf).plain

theorem forall₂_muted_gathered (h : ∀ f ∈ fs, Muted k f) (resolved : Bool) :
    List.Forall₂ (Step.Agrees (Piece.keeping Item.unoffered?) (Piece.keeping Item.unnoticed?))
      (gathers ⟨k, true⟩ resolved fs (fields ⟨k, true⟩ fs))
      (gathers ⟨k, false⟩ resolved fs (fields ⟨k, false⟩ fs)) := by
  rw [gathers_fields, gathers_fields]
  exact forall₂_map_map fun f hf => (h f hf).gathered resolved

end Children

theorem muted_group {k : Option Calculator} {children : List Field}
    (h : ∀ c ∈ children, Muted k c) (id : Nat) (g : Group) :
    (field ⟨k, true⟩ (.group id g children)).Agrees Item.unoffered? Item.unnoticed?
      (field ⟨k, false⟩ (.group id g children)) := by
  simp only [field, groupStep]
  split
  next =>
    have hc (n : Nat) : Item.unoffered? (.notice (.structureCut g.name n)) =
        Item.unnoticed? (.notice (.structureCut g.name n)) := rfl
    exact (Step.agrees_whileData hc (forall₂_muted h)).between _ _
  next format _ =>
    have hc (n : Nat) : Piece.keeping Item.unoffered? (.item (.notice (.structureCut g.name n))) =
        Piece.keeping Item.unnoticed? (.item (.notice (.structureCut g.name n))) := rfl
    exact (Step.agrees_whileData hc (forall₂_muted_gathered h false)).lines format

theorem muted_repetitions {k : Option Calculator} {elements : List Field}
    (h : ∀ c ∈ elements, Muted k c) (s : Series) (count : Option Nat) :
    Step.Agrees Item.unoffered? Item.unnoticed?
      (repetitions ⟨k, true⟩ s elements (fields ⟨k, true⟩ elements) count)
      (repetitions ⟨k, false⟩ s elements (fields ⟨k, false⟩ elements) count) := by
  intro st
  unfold repetitions
  cases s.printFormat with
  | none =>
    have hlap (index : Nat) : (labelled s (fields ⟨k, true⟩ elements) index).Agrees
        Item.unoffered? Item.unnoticed? (labelled s (fields ⟨k, false⟩ elements) index) :=
      (Step.agrees_sequence (forall₂_muted h)).between _ _
    obtain ⟨hs, hi⟩ := Laps.agrees_run hlap count st
    refine ⟨hs, ?_⟩
    simp only [List.filterMap_append, hi, unoffered_notices, unnoticed_notices]
  | some format =>
    have hlap (_ : Nat) := Step.agrees_sequence (forall₂_muted_gathered h (isUniform elements))
    obtain ⟨hs, hi⟩ := Laps.agrees_run hlap count st
    refine ⟨hs, ?_⟩
    simp only [filterMap_lines_unoffered, filterMap_lines_unnoticed, List.filterMap_append, hi,
      filterMap_keeping_items, unoffered_notices, unnoticed_notices]

theorem muted_elementsStep {k : Option Calculator} {elements : List Field}
    (h : ∀ c ∈ elements, Muted k c) (id : Nat) (s : Series) (start : Nat)
    (count : Option (Option Nat)) : Step.Agrees Item.unoffered? Item.unnoticed?
      (elementsStep ⟨k, true⟩ id s elements (fields ⟨k, true⟩ elements) start count)
      (elementsStep ⟨k, false⟩ id s elements (fields ⟨k, false⟩ elements) start count) := by
  cases count with
  | none => exact Step.agrees_tell rfl
  | some count =>
    intro st
    obtain ⟨hs, hi⟩ := muted_repetitions h s count st
    simp only [elementsStep]
    split
    next => exact ⟨rfl, rfl⟩
    next =>
      refine ⟨hs, ?_⟩
      simp only [List.filterMap_append, List.filterMap_cons, Item.unoffered?, Item.unnoticed?, hi,
        unoffered_notices, unnoticed_notices]

theorem muted_array {k : Option Calculator} {elements : List Field}
    (h : ∀ c ∈ elements, Muted k c) (id : Nat) (s : Series) :
    (field ⟨k, true⟩ (.array id s elements)).Agrees Item.unoffered? Item.unnoticed?
      (field ⟨k, false⟩ (.array id s elements)) := by
  intro st
  simp only [field, arrayStep, List.filterMap_append, unoffered_notices, unnoticed_notices,
    List.nil_append]
  exact muted_elementsStep h id s _ _ _

theorem muted_bitArray (k : Option Calculator) (id : Nat) (w : Window) (children : List Field) :
    Muted k (.bitArray id w children) where
  plain st := ⟨rfl, unoffered_of_candidates (candidates_bitsStep ⟨k, true⟩ w _ st)⟩
  gathered resolved st := ⟨rfl, keeping_of_candidates <|
    filterMap_through_gathered_bitArray (fun _ => rfl) ⟨k, true⟩ resolved id w children st⟩

theorem muted (k : Option Calculator) (f : Field) : Muted k f := by
  induction f using Field.induction with
  | scalar id s => exact muted_scalar k id s
  | bit id b => exact muted_of_plain (Step.agrees_tell rfl) fun _ _ => rfl
  | group id g children ih => exact muted_of_plain (muted_group ih id g) fun _ _ => rfl
  | array id s elements ih => exact muted_of_plain (muted_array ih id s) fun _ _ => rfl
  | bitArray id w children _ => exact muted_bitArray k id w children
  | stream id s =>
    apply muted_of_plain _ fun _ _ => rfl
    exact fun st => ⟨rfl, unoffered_of_candidates (candidates_streamStep s st)⟩

theorem events_of_unoffered {on off : List Item}
    (h : on.filterMap Item.unoffered? = off.filterMap Item.unnoticed?) :
    off.filterMap Item.event? = on.filterMap Item.event? ∧ off.filterMap Item.candidate? = [] := by
  have hon : (on.filterMap Item.unoffered?).filterMap Item.event? = on.filterMap Item.event? := by
    rw [List.filterMap_filterMap]
    exact List.filterMap_congr fun i _ => by cases i <;> rfl
  have hoff : (off.filterMap Item.unnoticed?).filterMap Item.event? =
      off.filterMap Item.event? := by
    rw [List.filterMap_filterMap]
    exact List.filterMap_congr fun i _ => by cases i <;> rfl
  refine ⟨by rw [← hon, ← hoff, h], List.filterMap_eq_nil_iff.mpr fun i hi => ?_⟩
  cases i with
  | candidate c =>
    have hc : Item.candidate c ∈ off.filterMap Item.unnoticed? :=
      List.mem_filterMap.mpr ⟨_, hi, rfl⟩
    rw [← h] at hc
    obtain ⟨j, -, hj⟩ := List.mem_filterMap.mp hc
    cases j <;> cases hj
  | _ => rfl

end Telemetry.Decode
