import Telemetry.Proofs.Decode.Composition
import Telemetry.Proofs.Decode.FormattedValues
import Telemetry.Proofs.Decode.Repetitions

/-!
The order of events. What a field shows is a sequence of phrases, and a phrase is an event without
brackets, or a structure or an array with phrases between its brackets.
-/

namespace Telemetry.Decode

open Layout (Arena Scalar Window Field Group Series Stream)

/-- One phrase, of the arrays that are known. Those without a print format bracket each of their
repetitions, of which there are no more than are asked for. -/
inductive Phrase (known : Series → Prop) : List Event → Prop
  | value (name : String) (v : Value) (unit : Option String) : Phrase known [.value name v unit]
  | line (offset : Nat) (text : String) : Phrase known [.line offset text]
  | address (offset : Nat) (text : String) : Phrase known [.address offset text]
  | group (name : String) {parts : List (List Event)} (h : ∀ p ∈ parts, Phrase known p) :
      Phrase known (.groupStart name :: parts.flatten ++ [.groupEnd name])
  | repeated {s : Series} (hs : known s) (hp : s.printFormat = none) {count : Option Nat}
      {groups : List (List (List Event))} (h : ∀ parts ∈ groups, ∀ p ∈ parts, Phrase known p)
      (hc : ∀ n, count = some n → groups.length ≤ n) :
      Phrase known (.arrayStart s.name count ::
        (groups.zipIdx.flatMap fun g => underLabel s g.1.flatten g.2) ++ [.arrayEnd s.name])
  | formatted {s : Series} (hs : known s) {format : PrintFormat}
      (hp : s.printFormat = some format) (count : Option Nat) {parts : List (List Event)}
      (h : ∀ p ∈ parts, Phrase known p) :
      Phrase known (.arrayStart s.name count :: parts.flatten ++ [.arrayEnd s.name])

def Phrases (known : Series → Prop) (events : List Event) : Prop :=
  ∃ parts : List (List Event), (∀ p ∈ parts, Phrase known p) ∧ events = parts.flatten

def Speaks (known : Series → Prop) (items : List Item) : Prop :=
  Phrases known (items.filterMap Item.event?)

variable {known : Series → Prop}

theorem Phrase.phrases {events : List Event} (h : Phrase known events) : Phrases known events :=
  ⟨[events], List.forall_mem_singleton.mpr h, (List.flatten_singleton).symm⟩

theorem composable_phrases : Composable (Phrases known) where
  nil := ⟨[], nofun, rfl⟩
  append := by
    rintro xs ys ⟨ps, hp, rfl⟩ ⟨qs, hq, rfl⟩
    exact ⟨ps ++ qs, List.forall_mem_append.mpr ⟨hp, hq⟩, List.flatten_append.symm⟩

theorem composable_speaks : Composable (Speaks known) where
  nil := composable_phrases.nil
  append := by
    intro xs ys hx hy
    rw [Speaks, List.filterMap_append]
    exact composable_phrases.append hx hy

theorem speaks_of_silent {items : List Item} (h : items.filterMap Item.event? = []) :
    Speaks known items := by
  rw [Speaks, h]
  exact composable_phrases.nil

theorem speaks_notices (notices : List Notice) : Speaks known (notices.map Item.notice) :=
  speaks_of_silent (events_notices notices)

theorem speaks_event {e : Event} (h : Phrase known [e]) : Speaks known [.event e] := h.phrases

theorem speaks_shown (o : Options) (name : String) (attrs : Attributes) (dn : Value) :
    Speaks known (shown o name attrs dn) :=
  composable_speaks.append (speaks_notices _) (speaks_event (.value name _ attrs.unit))

theorem speaks_lastLine (f : PrintFormat) (offset : Nat) (values : List Value) :
    Speaks known (lastLine f offset values) := by
  unfold lastLine
  split
  next => exact composable_speaks.nil
  next => exact speaks_event (.line _ _)

/-- Pieces in which no value for the print format stands within a phrase. -/
inductive Settled (known : Series → Prop) : List Piece → Prop
  | nil : Settled known []
  | sample (offset : Nat) (v : Value) {rest : List Piece} (h : Settled known rest) :
      Settled known (.sample offset v :: rest)
  | items {items : List Item} (hi : Speaks known items) {rest : List Piece}
      (h : Settled known rest) : Settled known (items.map .item ++ rest)

theorem settled_items {items : List Item} (h : Speaks known items) :
    Settled known (items.map .item) := by
  have hs := Settled.items h .nil
  rwa [List.append_nil] at hs

theorem composable_settled : Composable (Settled known) where
  nil := .nil
  append := by
    intro xs ys hx hy
    induction hx with
    | nil => exact hy
    | sample offset v _ ih => exact .sample offset v ih
    | items hi _ ih =>
      rw [List.append_assoc]
      exact .items hi ih

theorem gatherLines_items (f : PrintFormat) (offset : Nat) (values : List Value)
    (items : List Item) (rest : List Piece) :
    gatherLines f offset values (items.map .item ++ rest) =
      items ++ gatherLines f offset values rest := by
  induction items with
  | nil => rfl
  | cons i items ih => exact congrArg (i :: ·) ih

theorem Settled.speaks {pieces : List Piece} (h : Settled known pieces) (f : PrintFormat)
    (offset : Nat) (values : List Value) : Speaks known (gatherLines f offset values pieces) := by
  induction h generalizing offset values with
  | nil => exact speaks_lastLine f offset values
  | sample o v _ ih =>
    simp only [gatherLines]
    split
    · exact composable_speaks.append (speaks_event (.line _ _)) (ih _ _)
    · exact ih _ _
  | items hi _ ih =>
    rw [gatherLines_items]
    exact composable_speaks.append hi (ih offset values)

theorem Settled.lines {pieces : List Piece} (h : Settled known pieces) (f : PrintFormat) :
    Speaks known (lines f pieces) := h.speaks f 0 []

theorem settled_sampled (o : Options) (resolved : Bool) (offset : Nat) (name : String)
    (attrs : Attributes) (dn : Value) :
    Settled known (sampled o resolved offset name attrs dn) := by
  cases resolved with
  | true =>
    have hn : Speaks known _ :=
      speaks_notices (complaint name dn (Resolution.resolve o.calculator attrs dn))
    replace hn := settled_items hn
    rw [List.map_map] at hn
    exact composable_settled.append hn (.sample offset _ .nil)
  | false => exact .sample offset dn .nil

structure Orderly (known : Series → Prop) (o : Options) (f : Field) : Prop where
  plain : (field o f).Gives (Speaks known)
  gathered : ∀ resolved, (gathered o resolved f).Gives (Settled known)

theorem orderly_of_plain {o : Options} {f : Field} (h : (field o f).Gives (Speaks known))
    (hg : ∀ resolved, gathered o resolved f = (field o f).mapItems (·.map .item)) :
    Orderly known o f := by
  refine ⟨h, fun resolved => ?_⟩
  rw [hg]
  exact h.mapItems fun _ => settled_items

theorem orderly_scalar (o : Options) (id : Nat) (s : Scalar) :
    Orderly known o (.scalar id s) := by
  have hr (st : State) : Speaks known (readScalar o.channels id s st).items :=
    speaks_of_silent (events_readScalar o.channels id s st)
  constructor
  · intro st
    apply composable_speaks.append (hr st)
    cases (readScalar o.channels id s st).dn with
    | none => exact composable_speaks.nil
    | some dn => exact speaks_shown o s.name s.attrs dn
  · intro resolved st
    apply composable_settled.append (settled_items (hr st))
    cases (readScalar o.channels id s st).dn with
    | none => exact .nil
    | some dn => exact settled_sampled o resolved _ s.name s.attrs dn

theorem orderly_bitArray (o : Options) (id : Nat) (w : Window) (children : List Field) :
    Orderly known o (.bitArray id w children) := by
  constructor
  · intro st
    apply composable_speaks.append (speaks_notices _)
    exact composable_speaks.flatMap fun p _ => speaks_shown o p.1.name p.1.attrs p.2
  · intro resolved st
    have hn : Speaks known _ :=
      speaks_notices (readBits w (children.filterMap Field.bit?) st).notices
    replace hn := settled_items hn
    rw [List.map_map] at hn
    apply composable_settled.append hn
    exact composable_settled.flatMap fun p _ =>
      settled_sampled o resolved _ p.1.name p.1.attrs p.2

theorem gives_stream (s : Stream) : (streamStep s).Gives (Speaks known) := by
  intro st
  apply composable_speaks.append
  · unfold displayed
    split
    next => exact composable_speaks.nil
    next => exact speaks_event (.value _ _ _)
    next =>
      rw [← List.flatMap_pure_eq_map]
      exact composable_speaks.flatMap fun l _ => speaks_event (.address l.1 l.2)
  · split
    next => exact speaks_of_silent rfl
    next => exact composable_speaks.nil

theorem phrase_group {o : Options} {children : List Field}
    (h : ∀ c ∈ children, Orderly known o c) {g : Group} (hg : g.printFormat = none) (id : Nat)
    (st : State) :
    Phrase known ((field o (.group id g children) st).items.filterMap Item.event?) := by
  have hc := forall_mem_fields fun c hc => (h c hc).plain
  have hcut (n : Nat) : Speaks known [(Item.notice ∘ .structureCut g.name) n] :=
    speaks_of_silent rfl
  have hw := Step.gives_whileData composable_speaks hcut hc
  obtain ⟨parts, hp, he⟩ := hw st
  have hphrase := Phrase.group g.name hp
  rw [← he] at hphrase
  simpa [field, groupStep, hg, Step.andThen, Step.tell, Item.event?] using hphrase

theorem gives_group {o : Options} {children : List Field}
    (h : ∀ c ∈ children, Orderly known o c) (id : Nat) (g : Group) :
    (field o (.group id g children)).Gives (Speaks known) := by
  cases hg : g.printFormat with
  | none => exact fun st => (phrase_group h hg id st).phrases
  | some format =>
    have hc := forall_mem_gathers fun c hc => (h c hc).gathered false
    have hcut (n : Nat) : Settled known [.item (.notice (.structureCut g.name n))] := by
      have hn : Speaks known [.notice (.structureCut g.name n)] := speaks_of_silent rfl
      exact settled_items hn
    have hw := Step.gives_whileData composable_settled hcut hc
    simp only [field, groupStep, hg]
    exact hw.mapItems fun _ hs => hs.lines format

section Laps

variable {s : Series} {lap : Nat → Step Item}

def Labelled (known : Series → Prop) (s : Series) (index : Nat) (items : List Item) : Prop :=
  ∃ events, Phrases known events ∧ items.filterMap Item.event? = underLabel s events index

def Grouped (known : Series → Prop) (s : Series) (index : Nat) (runs : List (List Item))
    (groups : List (List (List Event))) : Prop :=
  (∀ parts ∈ groups, ∀ p ∈ parts, Phrase known p) ∧ groups.length = runs.length ∧
    runs.flatten.filterMap Item.event? =
      (groups.zipIdx index).flatMap fun g => underLabel s g.1.flatten g.2

theorem grouped_nil (index : Nat) : Grouped known s index [] [] := ⟨nofun, rfl, rfl⟩

theorem Grouped.cons {index : Nat} {run : List Item} {runs : List (List Item)}
    {groups : List (List (List Event))} (hr : Labelled known s index run)
    (h : Grouped known s (index + 1) runs groups) :
    ∃ parts, Grouped known s index (run :: runs) (parts :: groups) := by
  obtain ⟨hphrase, hlength, hevents⟩ := h
  obtain ⟨_, ⟨parts, hp, rfl⟩, hr⟩ := hr
  refine ⟨parts, List.forall_mem_cons.mpr ⟨hp, hphrase⟩, congrArg (· + 1) hlength, ?_⟩
  rw [List.flatten_cons, List.filterMap_append, hr, hevents]
  rfl

theorem grouped_counted
    (h : ∀ index st, Labelled known s index (lap index st).items)
    (count index : Nat) (st : State) :
    ∃ groups, Grouped known s index (Laps.counted lap count index st).runs groups ∧
      groups.length ≤ count := by
  induction count generalizing index st with
  | zero => exact ⟨[], grouped_nil index, Nat.le_refl 0⟩
  | succ count ih =>
    rw [Laps.counted]
    split
    next =>
      obtain ⟨groups, hg, hle⟩ := ih (index + 1) (lap index st).state
      obtain ⟨parts, hg⟩ := hg.cons (h index st)
      exact ⟨parts :: groups, hg, Nat.succ_le_succ hle⟩
    next => exact ⟨[], grouped_nil index, Nat.zero_le _⟩

theorem grouped_untilExhausted
    (h : ∀ index st, Labelled known s index (lap index st).items)
    (index : Nat) (st : State) :
    ∃ groups, Grouped known s index (Laps.untilExhausted lap index st).runs groups := by
  fun_induction Laps.untilExhausted lap index st with
  | case1 index st hm y hless ih =>
    obtain ⟨groups, hg⟩ := ih
    obtain ⟨parts, hg⟩ := hg.cons (h index st)
    exact ⟨parts :: groups, hg⟩
  | case2 index st hm y hless =>
    obtain ⟨parts, hg⟩ := (grouped_nil (index + 1)).cons (h index st)
    exact ⟨[parts], hg⟩
  | case3 index st hm => exact ⟨[], grouped_nil index⟩

theorem grouped_run (h : ∀ index st, Labelled known s index (lap index st).items)
    (count : Option Nat) (st : State) :
    ∃ groups, Grouped known s 0 (Laps.run lap count st).runs groups ∧
      ∀ n, count = some n → groups.length ≤ n := by
  cases count with
  | none =>
    obtain ⟨groups, hg⟩ := grouped_untilExhausted h 0 st
    exact ⟨groups, hg, nofun⟩
  | some n =>
    obtain ⟨groups, hg, hle⟩ := grouped_counted h n 0 st
    refine ⟨groups, hg, ?_⟩
    rintro m ⟨⟩
    exact hle

end Laps

section Arrays

variable {o : Options} {s : Series} {elements : List Field}

theorem phrase_repetitions (h : ∀ c ∈ elements, Orderly known o c) (hs : known s)
    (count : Option Nat) (st : State) :
    Phrase known (.arrayStart s.name count ::
      (repetitions o s elements (fields o elements) count st).items.filterMap Item.event? ++
        [.arrayEnd s.name]) := by
  cases hp : s.printFormat with
  | none =>
    have hc := forall_mem_fields fun c hc => (h c hc).plain
    have hseq := Step.gives_sequence composable_speaks hc
    have hlap (index : Nat) (st : State) :
        Labelled known s index (labelled s (fields o elements) index st).items :=
      ⟨_, hseq st, events_labelled o s elements index st⟩
    obtain ⟨groups, ⟨hg, -, hevents⟩, hc⟩ := grouped_run hlap count st
    simp only [repetitions, hp, List.filterMap_append, events_notices, List.append_nil, hevents]
    exact .repeated hs hp hg hc
  | some format =>
    have hc := forall_mem_gathers fun c hc => (h c hc).gathered (isUniform elements)
    have hlap := Step.gives_sequence composable_settled hc
    have hruns := Laps.gives_run composable_settled (fun _ => hlap) count st
    have hn (stop : List Notice) : Settled known ((stop.map Item.notice).map .item) :=
      settled_items (speaks_notices stop)
    obtain ⟨parts, hparts, he⟩ := (composable_settled.append hruns (hn _)).lines format
    simp only [repetitions, hp]
    rw [he]
    exact .formatted hs hp count hparts

theorem gives_array (h : ∀ c ∈ elements, Orderly known o c) (hs : known s) (id : Nat) :
    (field o (.array id s elements)).Gives (Speaks known) := by
  intro st
  apply composable_speaks.append (speaks_notices _)
  cases (readCount s elements st).count with
  | none => exact composable_speaks.nil
  | some count =>
    simp only [elementsStep]
    split
    next => exact composable_speaks.nil
    next =>
      have hr := (phrase_repetitions h hs count (readCount s elements st).state).phrases
      simpa only [Speaks, List.filterMap_append, List.filterMap_cons, Item.event?, events_notices]
        using hr

end Arrays

def arraysOf (f : Field) (s : Series) : Prop := ∃ id elements, .array id s elements ∈ f.preorder

theorem orderly {o : Options} (f : Field)
    (hk : ∀ g ∈ f.preorder, ∀ id s elements, g = .array id s elements → known s) :
    Orderly known o f := by
  induction f using Field.induction with
  | scalar id s => exact orderly_scalar o id s
  | bit id b =>
    exact orderly_of_plain (Step.gives_tell (speaks_of_silent rfl)) fun _ => rfl
  | group id g children ih =>
    obtain ⟨-, hbelow⟩ := Field.forall_mem_preorder.mp hk
    exact orderly_of_plain (gives_group (fun c hc => ih c hc (hbelow c hc)) id g) fun _ => rfl
  | array id s elements ih =>
    obtain ⟨hs, hbelow⟩ := Field.forall_mem_preorder.mp hk
    have ha := gives_array (fun c hc => ih c hc (hbelow c hc)) (hs id s elements rfl) id
    exact orderly_of_plain ha fun _ => rfl
  | bitArray id w children _ => exact orderly_bitArray o id w children
  | stream id s => exact orderly_of_plain (gives_stream s) fun _ => rfl

theorem known_arraysOf (f : Field) :
    ∀ g ∈ f.preorder, ∀ id s elements, g = .array id s elements → arraysOf f s := by
  rintro g hg id s elements rfl
  exact ⟨id, elements, hg⟩

theorem phrases_field (o : Options) (f : Field) (st : State) :
    Phrases (arraysOf f) ((field o f st).items.filterMap Item.event?) :=
  (orderly f (known_arraysOf f)).plain st

theorem phrase_field {f : Field} {id : Nat} {g : Group} {children : List Field}
    (hf : f = .group id g children) (hg : g.printFormat = none) (o : Options) (st : State) :
    Phrase (arraysOf f) ((field o f st).items.filterMap Item.event?) := by
  obtain ⟨-, hbelow⟩ := Field.forall_mem_preorder.mp (known_arraysOf f)
  subst hf
  exact phrase_group (fun c hc => orderly c (hbelow c hc)) hg id st

end Telemetry.Decode
