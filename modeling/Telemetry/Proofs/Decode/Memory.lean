import Mathlib.Data.List.Induction
import Telemetry.Proofs.Decode.Agreement
import Telemetry.Proofs.Decode.Findings

/-!
What a decode remembers. The counts kept between fields are told by the readings alone: for each
scalar the last of its data numbers that can be a count.
-/

namespace Telemetry.Decode

open Layout (Scalar BitField Window Field Group Series)

variable {α β : Type} {q : α → Option (Nat × Scalar × Value)}

def numbersOf (id : Nat) (readings : List (Nat × Scalar × Value)) : List Value :=
  readings.filterMap fun x => if x.1 = id then some x.2.2 else none

def countsOf (id : Nat) (readings : List (Nat × Scalar × Value)) : List Nat :=
  (numbersOf id readings).filterMap fun dn => dn.count?.map UInt64.toNat

def newest? (id : Nat) (items : List Item) : Option Value :=
  (numbersOf id (items.filterMap Item.reading?)).getLast?

def lastCount? (id : Nat) (items : List Item) : Option Nat :=
  (countsOf id (items.filterMap Item.reading?)).getLast?

theorem lastCount?_of_newest {id : Nat} {items : List Item} {n : UInt64}
    (h : (newest? id items).bind Value.count? = some n) : lastCount? id items = some n.toNat := by
  obtain ⟨dn, hnewest, hn⟩ := Option.bind_eq_some_iff.mp h
  obtain ⟨older, holder⟩ := List.getLast?_eq_some_iff.mp hnewest
  rw [lastCount?, countsOf, holder, List.filterMap_append, List.getLast?_append]
  simp [hn]

theorem lastCount?_of_newest_none {id : Nat} {items : List Item} (h : newest? id items = none) :
    lastCount? id items = none := by
  rw [newest?, List.getLast?_eq_none_iff] at h
  rw [lastCount?, countsOf, h]
  rfl

namespace Remembered

def note (r : Remembered) (x : Nat × Scalar × Value) : Remembered :=
  match x.2.2.count? with
  | some n => r.set x.1 n.toNat
  | none => r

def after (r : Remembered) (items : List Item) : Remembered :=
  (items.filterMap Item.reading?).foldl note r

theorem after_append (r : Remembered) (xs ys : List Item) :
    r.after (xs ++ ys) = (r.after xs).after ys := by
  rw [after, List.filterMap_append, List.foldl_append]
  rfl

theorem get?_foldl_note (r : Remembered) (id : Nat) (readings : List (Nat × Scalar × Value)) :
    (readings.foldl note r).get? id = (countsOf id readings).getLast?.or (r.get? id) := by
  induction readings using List.reverseRecOn with
  | nil => rfl
  | append_singleton readings x ih =>
    obtain ⟨other, s, dn⟩ := x
    have hcounts : countsOf id (readings ++ [(other, s, dn)]) = countsOf id readings ++
        (if other = id then (dn.count?.map UInt64.toNat).toList else []) := by
      rw [countsOf, numbersOf, List.filterMap_append, List.filterMap_append]
      by_cases hid : other = id
      · cases hn : dn.count? <;> simp [hid, hn, countsOf, numbersOf]
      · simp [hid, countsOf, numbersOf]
    rw [List.foldl_append, hcounts, List.getLast?_append]
    simp only [List.foldl_cons, List.foldl_nil, note]
    cases hn : dn.count? with
    | none => simpa using ih
    | some n =>
      rw [get?_set]
      by_cases hid : other = id
      · simp [hid]
      · simpa [hid, Ne.symm hid] using ih

theorem get?_after (items : List Item) (id : Nat) :
    (({} : Remembered).after items).get? id = lastCount? id items := by
  rw [after, get?_foldl_note]
  exact Option.or_none

end Remembered

def Step.Keeps (q : α → Option (Nat × Scalar × Value)) (a : Step α) : Prop :=
  ∀ s, (a s).state.remembered = ((a s).items.filterMap q).foldl Remembered.note s.remembered

namespace Step

variable {a b : Step α} {steps : List (Step α)}

theorem keeps_of_silent (hs : ∀ s, (a s).state.remembered = s.remembered)
    (hi : ∀ s, (a s).items.filterMap q = []) : a.Keeps q := by
  intro s
  rw [hs, hi]
  rfl

theorem keeps_tell {items : List α} (h : items.filterMap q = []) : (tell items).Keeps q :=
  keeps_of_silent (fun _ => rfl) fun _ => h

theorem Keeps.andThen (ha : a.Keeps q) (hb : b.Keeps q) : (a.andThen b).Keeps q := by
  intro s
  simp only [Step.andThen, List.filterMap_append, List.foldl_append]
  rw [← ha s]
  exact hb (a s).state

theorem Keeps.between (ha : a.Keeps q) {opening closing : List α} (ho : opening.filterMap q = [])
    (hc : closing.filterMap q = []) : ((tell opening).andThen (a.andThen (tell closing))).Keeps q :=
  (keeps_tell ho).andThen (ha.andThen (keeps_tell hc))

theorem Keeps.whereData (ha : a.Keeps q) {items : List α} (hi : items.filterMap q = []) :
    (a.whereData items).Keeps q := by
  intro s
  unfold Step.whereData
  split
  next => exact ha s
  next =>
    rw [hi]
    rfl

theorem Keeps.mapItems {q' : β → Option (Nat × Scalar × Value)} (ha : a.Keeps q)
    {f : List α → List β} (hf : ∀ items, (f items).filterMap q' = items.filterMap q) :
    (a.mapItems f).Keeps q' := by
  intro s
  simp only [Step.mapItems, hf]
  exact ha s

theorem keeps_sequence (h : ∀ a ∈ steps, a.Keeps q) : (sequence steps).Keeps q :=
  sequence_of_forall (keeps_tell rfl) .andThen h

theorem keeps_whileData {cut : Nat → α} (hc : ∀ n, q (cut n) = none)
    (h : ∀ a ∈ steps, a.Keeps q) : (whileData cut steps).Keeps q :=
  whileData_of_forall (keeps_tell rfl) .andThen
    (fun n ha => ha.whereData (by rw [List.filterMap_cons_none (hc n), List.filterMap_nil])) h

theorem Keeps.lines {a : Step Piece} (h : a.Keeps (Piece.through Item.reading?)) (f : PrintFormat) :
    (a.mapItems (lines f)).Keeps Item.reading? :=
  h.mapItems fun pieces => filterMap_through_gatherLines (fun _ _ => rfl) f 0 [] pieces

theorem Keeps.pieces {a : Step Item} (h : a.Keeps Item.reading?) :
    (a.mapItems (·.map Piece.item)).Keeps (Piece.through Item.reading?) :=
  h.mapItems filterMap_through_items

end Step

namespace Laps

variable {lap : Nat → Step α}

theorem keeps_counted (h : ∀ index, (lap index).Keeps q) (count index : Nat) :
    Step.Keeps q fun s =>
      ⟨(counted lap count index s).runs.flatten, (counted lap count index s).state⟩ := by
  induction count generalizing index with
  | zero => exact Step.keeps_tell rfl
  | succ count ih =>
    intro s
    have hs := ((h index).andThen (ih (index + 1))).whereData (rfl : [].filterMap q = []) s
    rw [Step.whereData] at hs
    simp only [counted]
    split
    next hm => rwa [if_pos hm] at hs
    next hm => rwa [if_neg hm] at hs

theorem keeps_untilExhausted (h : ∀ index, (lap index).Keeps q) (index : Nat) :
    Step.Keeps q fun s =>
      ⟨(untilExhausted lap index s).runs.flatten, (untilExhausted lap index s).state⟩ := by
  intro s
  dsimp only
  fun_induction untilExhausted lap index s with
  | case1 index s hm y hless ih =>
    simp only [first, List.flatten_cons, List.filterMap_append, List.foldl_append]
    rw [← h index s]
    exact ih
  | case2 index s hm y hless =>
    simp only [List.flatten_cons, List.flatten_nil, List.append_nil]
    exact h index s
  | case3 index s hm => rfl

theorem keeps_step (h : ∀ index, (lap index).Keeps q) (count : Option Nat) :
    (step lap count).Keeps q := by
  cases count with
  | none => exact keeps_untilExhausted h 0
  | some n => exact keeps_counted h n 0

end Laps

theorem readings_notices (notices : List Notice) :
    (notices.map Item.notice).filterMap Item.reading? = [] := filterMap_notices (fun _ => rfl) notices

theorem remembered_remember (st : State) (id : Nat) (s : Scalar) (dn : Value) :
    (st.remember id dn).remembered = st.remembered.note (id, s, dn) := by
  unfold State.remember Remembered.note
  cases dn.count? <;> rfl

theorem remembered_readLeaf (channels : Bool) (id : Nat) (s : Scalar) (bytes : List UInt8)
    (past : State) : (readLeaf channels id s bytes past).state.remembered =
      past.remembered.after (readLeaf channels id s bytes past).items := by
  unfold readLeaf Remembered.after
  split
  next => rfl
  next => rfl
  next dn _ =>
    have hoffer : (if channels then offer s dn else []).filterMap Item.reading? = [] :=
      filterMap_offered (fun _ => rfl) (fun _ => rfl) channels s dn
    simp only [List.filterMap_cons, Item.reading?, hoffer, List.foldl_cons, List.foldl_nil]
    exact remembered_remember past id s dn

theorem remembered_scan (s : Scalar) (st : State) : (scan s st).past.remembered = st.remembered := by
  unfold scan
  split
  next => rfl
  next =>
    dsimp only
    split
    next => split <;> rfl
    next => split <;> rfl

theorem remembered_readScalar (channels : Bool) (id : Nat) (s : Scalar) (st : State) :
    (readScalar channels id s st).state.remembered =
      st.remembered.after (readScalar channels id s st).items := by
  rw [readScalar_eq_reading, ← remembered_scan s st]
  unfold Scan.reading
  split
  next =>
    simp only [Remembered.after, readings_notices]
    rfl
  next bytes _ =>
    simp only [Remembered.after, List.filterMap_append, readings_notices, List.nil_append]
    exact remembered_readLeaf channels id s bytes _

structure KeepsField (o : Options) (f : Field) : Prop where
  plain : (field o f).Keeps Item.reading?
  gathered : ∀ resolved, (gathered o resolved f).Keeps (Piece.through Item.reading?)

theorem KeepsField.of_plain {o : Options} {f : Field} (h : (field o f).Keeps Item.reading?)
    (hg : ∀ resolved, Decode.gathered o resolved f = (field o f).mapItems (·.map Piece.item)) :
    KeepsField o f where
  plain := h
  gathered resolved := by
    rw [hg resolved]
    exact h.pieces

theorem keepsField_scalar (o : Options) (id : Nat) (s : Scalar) : KeepsField o (.scalar id s) where
  plain st := by
    rw [field, filterMap_scalarStep (fun _ => rfl) fun _ _ _ => rfl]
    exact remembered_readScalar o.channels id s st
  gathered resolved st := by
    rw [filterMap_through_gathered_scalar fun _ => rfl]
    exact remembered_readScalar o.channels id s st

theorem remembered_readBits (w : Window) (bits : List BitField) (st : State) :
    (readBits w bits st).state.remembered = st.remembered := by
  rw [state_readBits]
  rfl

theorem keepsField_bitArray (o : Options) (id : Nat) (w : Window) (children : List Field) :
    KeepsField o (.bitArray id w children) where
  plain st := by
    rw [field, filterMap_bitsStep (fun _ => rfl) fun _ _ _ => rfl]
    exact remembered_readBits w (children.filterMap Field.bit?) st
  gathered resolved st := by
    rw [filterMap_through_gathered_bitArray fun _ => rfl]
    exact remembered_readBits w (children.filterMap Field.bit?) st

theorem keeps_group {o : Options} {children : List Field} (h : ∀ c ∈ children, KeepsField o c)
    (id : Nat) (g : Group) : (field o (.group id g children)).Keeps Item.reading? := by
  simp only [field, groupStep]
  split
  next =>
    apply Step.Keeps.between _ rfl rfl
    exact Step.keeps_whileData (fun _ => rfl) (forall_mem_fields fun c hc => (h c hc).plain)
  next format _ =>
    apply Step.Keeps.lines
    exact Step.keeps_whileData (fun _ => rfl)
      (forall_mem_gathers fun c hc => (h c hc).gathered false)

theorem keeps_repetitions {o : Options} {elements : List Field}
    (h : ∀ c ∈ elements, KeepsField o c) (s : Series) (count : Option Nat) :
    Step.Keeps Item.reading? (repetitions o s elements (fields o elements) count) := by
  intro st
  unfold repetitions
  split
  next =>
    have hlap (index : Nat) : (labelled s (fields o elements) index).Keeps Item.reading? :=
      (Step.keeps_sequence (forall_mem_fields fun c hc => (h c hc).plain)).between rfl rfl
    simp only [List.filterMap_append, readings_notices, List.append_nil]
    exact Laps.keeps_step hlap count st
  next format _ =>
    have hlap (_ : Nat) := Step.keeps_sequence
      (forall_mem_gathers fun c hc => (h c hc).gathered (isUniform elements))
    have hlines (pieces : List Piece) : (lines format pieces).filterMap Item.reading? =
        pieces.filterMap (Piece.through Item.reading?) :=
      filterMap_through_gatherLines (fun _ _ => rfl) format 0 [] pieces
    simp only [hlines, List.filterMap_append, filterMap_through_items, readings_notices,
      List.append_nil]
    exact Laps.keeps_step hlap count st

theorem remembered_readCount (s : Series) (elements : List Field) (st : State) :
    (readCount s elements st).state.remembered = st.remembered := by
  unfold readCount
  split
  next => rfl
  next => rfl
  next => split <;> rfl
  next => split <;> rfl

theorem keeps_array {o : Options} {elements : List Field} (h : ∀ c ∈ elements, KeepsField o c)
    (id : Nat) (s : Series) : (field o (.array id s elements)).Keeps Item.reading? := by
  intro st
  simp only [field, arrayStep, List.filterMap_append, readings_notices, List.nil_append]
  rw [← remembered_readCount s elements st]
  cases (readCount s elements st).count with
  | none => rfl
  | some count =>
    simp only [elementsStep]
    split
    next => rfl
    next =>
      simp only [List.filterMap_cons, List.filterMap_append, Item.reading?, readings_notices,
        List.append_nil]
      exact keeps_repetitions h s count (readCount s elements st).state

theorem keeps_stream (s : Layout.Stream) : (streamStep s).Keeps Item.reading? :=
  Step.keeps_of_silent (fun _ => rfl)
    (filterMap_streamStep (fun _ _ _ => rfl) (fun _ _ => rfl) (fun _ => rfl) s)

theorem keepsField (o : Options) (f : Field) : KeepsField o f := by
  induction f using Field.induction with
  | scalar id s => exact keepsField_scalar o id s
  | bit id b => exact .of_plain (Step.keeps_tell rfl) fun _ => rfl
  | group id g children ih => exact .of_plain (keeps_group ih id g) fun _ => rfl
  | array id s elements ih => exact .of_plain (keeps_array ih id s) fun _ => rfl
  | bitArray id w children _ => exact keepsField_bitArray o id w children
  | stream id s => exact .of_plain (keeps_stream s) fun _ => rfl

theorem remembered_field (o : Options) (f : Field) (st : State) :
    (field o f st).state.remembered = st.remembered.after (field o f st).items :=
  (keepsField o f).plain st

end Telemetry.Decode
