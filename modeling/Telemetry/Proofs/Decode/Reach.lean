import Mathlib.Logic.Relation
import Telemetry.Proofs.Decode.Memory
import Telemetry.Proofs.Decode.Repetitions

/-!
Where a decode gets to. A field that is reached is decoded from a state of its own, and what it tells
stands in one piece in what the whole decode tells; there, the state remembers all that was told
before it.
-/

namespace Telemetry.Decode

open Layout (Scalar BitField Window Field Group Series)

variable {α : Type}

def Item.mark? : Item → Option Item
  | .reading id s dn => some (.reading id s dn)
  | .event (.arrayStart name length) => some (.event (.arrayStart name length))
  | _ => none

def Step.repeated (n : Nat) (a : Step α) : Step α := sequence (List.replicate n a)

def lapsMade (o : Options) (elements : List Field) (count : Option Nat) (st : State) : Nat :=
  (Laps.run (fun _ => Step.sequence (fields o elements)) count st).runs.length

inductive Begins (o : Options) : Field × State → Field × State → Prop where
  | child {id : Nat} {g : Group} {before after : List Field} {c : Field} {st : State}
    (more : (afterElements o before st).hasMore = true) :
    Begins o (.group id g (before ++ c :: after), st) (c, afterElements o before st)
  | element {id : Nat} {s : Series} {elements before after : List Field} {c : Field} {st : State}
    {count : Option Nat} {k : Nat} (split : elements = before ++ c :: after)
    (decoded : isPadding elements = false)
    (counted : (readCount s elements st).count = some count)
    (lap : k < lapsMade o elements count (readCount s elements st).state) :
    Begins o (.array id s elements, st) (c, afterElements o before
      ((Step.sequence (fields o elements)).repeated k (readCount s elements st).state).state)

def Reaches (o : Options) : Field × State → Field × State → Prop := Relation.ReflTransGen (Begins o)

section Marks

theorem marks_notices (notices : List Notice) :
    (notices.map Item.notice).filterMap Item.mark? = [] := filterMap_notices (fun _ => rfl) notices

theorem readings_marks (items : List Item) :
    (items.filterMap Item.mark?).filterMap Item.reading? = items.filterMap Item.reading? := by
  rw [List.filterMap_filterMap]
  congr 1
  funext i
  match i with
  | .reading .. | .candidate _ | .handoff _ | .notice _ | .defect _ => rfl
  | .event e => cases e <;> rfl

theorem after_marks (r : Remembered) (items : List Item) :
    r.after (items.filterMap Item.mark?) = r.after items := by
  rw [Remembered.after, readings_marks]
  rfl

theorem marks_scalar (o : Options) (id : Nat) (s : Scalar) (st : State) :
    (field o (.scalar id s) st).items.filterMap Item.mark? =
      (readScalar o.channels id s st).items.filterMap Item.mark? :=
  filterMap_scalarStep (fun _ => rfl) (fun _ _ _ => rfl) o id s st

theorem marks_bitArray (o : Options) (id : Nat) (w : Window) (children : List Field) (st : State) :
    (field o (.bitArray id w children) st).items.filterMap Item.mark? = [] :=
  filterMap_bitsStep (fun _ => rfl) (fun _ _ _ => rfl) o w _ st

theorem gathered_agrees (o : Options) (resolved : Bool) (f : Field) :
    (gathered o resolved f).Agrees (Piece.through Item.mark?) Item.mark? (field o f) := by
  intro st
  match f with
  | .scalar id s =>
    refine ⟨rfl, ?_⟩
    rw [filterMap_through_gathered_scalar fun _ => rfl, marks_scalar]
  | .bitArray id w children =>
    refine ⟨rfl, ?_⟩
    rw [filterMap_through_gathered_bitArray fun _ => rfl, marks_bitArray]
  | .bit .. | .group .. | .array .. | .stream .. => exact ⟨rfl, filterMap_through_items _⟩

theorem forall₂_gathered_marks (o : Options) (resolved : Bool) (fs : List Field) :
    List.Forall₂ (Step.Agrees (Piece.through Item.mark?) Item.mark?)
      (gathers o resolved fs (fields o fs)) (fields o fs) := by
  rw [gathers_fields, fields_eq_map]
  exact forall₂_map_map fun f _ => gathered_agrees o resolved f

theorem agrees_of_lines {a : Step Piece} {b : Step Item}
    (h : a.Agrees (Piece.through Item.mark?) Item.mark? b) (f : PrintFormat) :
    (a.mapItems (lines f)).Agrees Item.mark? Item.mark? b :=
  h.mapItems fun _ => filterMap_through_gatherLines (fun _ _ => rfl) f 0 [] _

theorem group_agrees (o : Options) (id : Nat) (g : Group) (children : List Field) :
    (field o (.group id g children)).Agrees Item.mark? Item.mark?
      (Step.withinData (fields o children)) := by
  simp only [field, groupStep]
  split
  next =>
    apply (Step.agrees_between _ rfl rfl).trans
    exact Step.agrees_withinData (fun _ => rfl) (List.forall₂_same.mpr fun _ _ _ => ⟨rfl, rfl⟩)
  next format _ =>
    apply agrees_of_lines
    exact Step.agrees_withinData (fun _ => rfl) (forall₂_gathered_marks o false children)

theorem repetitions_agrees (o : Options) (s : Series) (elements : List Field)
    (count : Option Nat) :
    Step.Agrees Item.mark? Item.mark? (repetitions o s elements (fields o elements) count)
      (Laps.step (fun _ => Step.sequence (fields o elements)) count) := by
  intro st
  unfold repetitions
  cases s.printFormat with
  | none =>
    have hlap (index : Nat) : (labelled s (fields o elements) index).Agrees Item.mark? Item.mark?
        (Step.sequence (fields o elements)) := Step.agrees_between _ rfl rfl
    obtain ⟨hs, hi⟩ := Laps.agrees_run hlap count st
    refine ⟨hs, ?_⟩
    simp only [List.filterMap_append, hi, marks_notices, List.append_nil]
    rfl
  | some format =>
    have hlap (_ : Nat) := Step.agrees_sequence (forall₂_gathered_marks o (isUniform elements) elements)
    obtain ⟨hs, hi⟩ := Laps.agrees_run hlap count st
    refine ⟨hs, ?_⟩
    simp only [lines, filterMap_through_gatherLines (q := Item.mark?) (fun _ _ => rfl),
      List.filterMap_append, hi, filterMap_through_items, marks_notices, List.append_nil]
    rfl

theorem marks_array {o : Options} {id : Nat} {s : Series} {elements : List Field} {st : State}
    {count : Option Nat} (hp : isPadding elements = false)
    (hc : (readCount s elements st).count = some count) :
    (field o (.array id s elements) st).items.filterMap Item.mark? =
      .event (.arrayStart s.name count) ::
        (Laps.step (fun _ => Step.sequence (fields o elements)) count
          (readCount s elements st).state).items.filterMap Item.mark? := by
  rw [← (repetitions_agrees o s elements count (readCount s elements st).state).2]
  simp only [field, arrayStep, hc, elementsStep, hp, Bool.false_eq_true, if_false,
    List.filterMap_append, List.filterMap_cons, marks_notices, Item.mark?, List.nil_append,
    List.append_nil]

end Marks

section Parts

theorem Step.sequence_append (as bs : List (Step α)) :
    sequence (as ++ bs) = (sequence as).andThen (sequence bs) := by
  induction as with
  | nil => rfl
  | cons a as ih =>
    funext s
    simp only [List.cons_append, sequence, ih, andThen, List.append_assoc]

theorem Step.repeated_succ (n : Nat) (a : Step α) :
    a.repeated (n + 1) = a.andThen (a.repeated n) := rfl

theorem Step.repeated_add (m n : Nat) (a : Step α) :
    a.repeated (m + n) = (a.repeated m).andThen (a.repeated n) := by
  rw [repeated, List.replicate_add, sequence_append]
  rfl

theorem Step.repeated_one (a : Step α) : a.repeated 1 = a := by
  funext s
  simp [repeated, sequence, andThen, tell]

theorem Laps.flatten_counted (a : Step α) (n index : Nat) (s : State) :
    (counted (fun _ => a) n index s).runs.flatten =
      (a.repeated (counted (fun _ => a) n index s).runs.length s).items := by
  induction n generalizing index s with
  | zero => rfl
  | succ n ih =>
    rw [counted]
    split
    next =>
      simp only [first, List.flatten_cons, List.length_cons, Step.repeated_succ, Step.andThen]
      rw [ih]
    next => rfl

theorem Laps.flatten_untilExhausted (a : Step α) (index : Nat) (s : State) :
    (untilExhausted (fun _ => a) index s).runs.flatten =
      (a.repeated (untilExhausted (fun _ => a) index s).runs.length s).items := by
  fun_induction untilExhausted (fun _ => a) index s with
  | case1 index s hm y hless ih =>
    simp only [first, List.flatten_cons, List.length_cons, Step.repeated_succ, Step.andThen]
    rw [ih]
  | case2 index s hm y hless => rfl
  | case3 index s hm => rfl

theorem Laps.items_step (a : Step α) (count : Option Nat) (s : State) :
    (step (fun _ => a) count s).items =
      (a.repeated (run (fun _ => a) count s).runs.length s).items := by
  cases count with
  | none => exact flatten_untilExhausted a 0 s
  | some n => exact flatten_counted a n 0 s

theorem Step.exists_append_repeated (a : Step α) {k n : Nat} (h : k < n) (s : State) :
    ∃ rest, (a.repeated n s).items =
      (a.repeated k s).items ++ (a (a.repeated k s).state).items ++ rest := by
  have hn : n = k + (1 + (n - k - 1)) := by omega
  rw [hn, repeated_add, repeated_add, repeated_one]
  simp only [andThen, ← List.append_assoc]
  exact ⟨_, rfl⟩

theorem hasMore_of_field {o : Options} {f : Field} {st : State}
    (h : (field o f st).state.hasMore = true) : st.hasMore = true := by
  obtain ⟨n, hn⟩ := (localField o f).plain.forward st
  rw [State.hasMore_iff, State.remaining, hn, Bytes.Cursor.remaining_advance] at h
  rw [State.hasMore_iff]
  exact Nat.lt_of_lt_of_le h (Nat.sub_le _ _)

theorem hasMore_of_afterElements {o : Options} {fs : List Field} {st : State}
    (h : (afterElements o fs st).hasMore = true) : st.hasMore = true := by
  induction fs generalizing st with
  | nil => exact h
  | cons f fs ih => exact hasMore_of_field (ih h)

theorem exists_append_withinData {o : Options} {before : List Field} {st : State}
    (h : (afterElements o before st).hasMore = true) (c : Field) (after : List Field) :
    ∃ rest, (Step.withinData (fields o (before ++ c :: after)) st).items =
      (Step.sequence (fields o before) st).items ++
        (field o c (afterElements o before st)).items ++ rest := by
  induction before generalizing st with
  | nil =>
    refine ⟨(Step.withinData (fields o after) (field o c st).state).items, ?_⟩
    exact congrArg Yield.items (if_pos h)
  | cons f before ih =>
    have hmore : st.hasMore = true := hasMore_of_afterElements h
    obtain ⟨rest, hrest⟩ := @ih (field o f st).state h
    refine ⟨rest, ?_⟩
    simp only [List.cons_append, fields, Step.withinData, Step.whereData, hmore, if_true,
      Step.andThen, Step.sequence, hrest, List.append_assoc]
    rfl

theorem items_sequence_fields (o : Options) (before after : List Field) (c : Field) (st : State) :
    (Step.sequence (fields o (before ++ c :: after)) st).items =
      (Step.sequence (fields o before) st).items ++
        ((field o c (afterElements o before st)).items ++
          (Step.sequence (fields o after) (field o c (afterElements o before st)).state).items) := by
  have hsplit : fields o (before ++ c :: after) = fields o before ++ field o c :: fields o after := by
    simp only [fields_eq_map, List.map_append, List.map_cons]
  rw [hsplit, Step.sequence_append]
  rfl

theorem remembered_afterElements (o : Options) (fs : List Field) (st : State) :
    (afterElements o fs st).remembered =
      st.remembered.after (Step.sequence (fields o fs) st).items :=
  Step.keeps_sequence (forall_mem_fields fun f _ => (keepsField o f).plain) st

theorem remembered_repeated (o : Options) (fs : List Field) (k : Nat) (st : State) :
    ((Step.sequence (fields o fs)).repeated k st).state.remembered =
      st.remembered.after ((Step.sequence (fields o fs)).repeated k st).items := by
  refine Step.keeps_sequence (fun a ha => ?_) st
  rw [List.eq_of_mem_replicate ha]
  exact remembered_afterElements o fs

end Parts

/-- Of counts, what one field tells stands in one piece in what another one does, and whatever has
been told before it is remembered. -/
def Within (o : Options) (inner outer : Field × State) : Prop :=
  ∃ before after : List Item,
    (field o outer.1 outer.2).items.filterMap Item.mark? =
      before ++ (field o inner.1 inner.2).items.filterMap Item.mark? ++ after ∧
    inner.2.remembered = outer.2.remembered.after before

theorem Within.trans {o : Options} {x y z : Field × State} (h : Within o y x)
    (h' : Within o z y) : Within o z x := by
  obtain ⟨b, a, hmarks, hmemory⟩ := h
  obtain ⟨b', a', hmarks', hmemory'⟩ := h'
  refine ⟨b ++ b', a' ++ a, ?_, ?_⟩
  · rw [hmarks, hmarks']
    simp only [List.append_assoc]
  · rw [hmemory', hmemory, Remembered.after_append]

theorem within_of_begins {o : Options} {x y : Field × State} (h : Begins o x y) :
    Within o y x := by
  cases h with
  | @child id g before after c st more =>
    obtain ⟨rest, hrest⟩ := exists_append_withinData more c after
    refine ⟨(Step.sequence (fields o before) st).items.filterMap Item.mark?,
      rest.filterMap Item.mark?, ?_, ?_⟩
    · rw [(group_agrees o id g (before ++ c :: after) st).2, hrest]
      simp only [List.filterMap_append]
    · rw [after_marks]
      exact remembered_afterElements o before st
  | @element id s elements before after c st count k split decoded counted lap =>
    let first := (readCount s elements st).state
    let earlier := (Step.sequence (fields o elements)).repeated k first
    let lead := (Step.sequence (fields o before) earlier.state).items
    let trail := (Step.sequence (fields o after)
      (field o c (afterElements o before earlier.state)).state).items
    obtain ⟨rest, hrest⟩ :
        ∃ rest, (Laps.step (fun _ => Step.sequence (fields o elements)) count first).items =
          earlier.items ++ (Step.sequence (fields o elements) earlier.state).items ++ rest := by
      rw [Laps.items_step]
      exact Step.exists_append_repeated _ lap first
    have hlap : (Step.sequence (fields o elements) earlier.state).items =
        lead ++ ((field o c (afterElements o before earlier.state)).items ++ trail) := by
      rw [split]
      exact items_sequence_fields o before after c _
    refine ⟨.event (.arrayStart s.name count) :: (earlier.items ++ lead).filterMap Item.mark?,
      (trail ++ rest).filterMap Item.mark?, ?_, ?_⟩
    · change (field o (.array id s elements) st).items.filterMap Item.mark? = _
      rw [marks_array decoded counted, hrest, hlap]
      simp only [List.filterMap_append, List.cons_append, List.append_assoc]
      rfl
    · have hstart (items : List Item) : st.remembered.after (.event (.arrayStart s.name count) ::
          items.filterMap Item.mark?) = st.remembered.after items := after_marks st.remembered items
      calc (afterElements o before earlier.state).remembered
          = earlier.state.remembered.after lead := remembered_afterElements o before earlier.state
        _ = (first.remembered.after earlier.items).after lead := by
          rw [remembered_repeated o elements k first]
        _ = st.remembered.after (earlier.items ++ lead) := by
          rw [remembered_readCount, Remembered.after_append]
        _ = _ := (hstart _).symm

theorem within_of_reaches {o : Options} {x y : Field × State} (h : Reaches o x y) :
    Within o y x := by
  induction h with
  | refl => exact ⟨[], [], by simp, rfl⟩
  | tail _ hstep ih => exact ih.trans (within_of_begins hstep)

end Telemetry.Decode
