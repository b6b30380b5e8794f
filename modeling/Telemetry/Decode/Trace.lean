import Telemetry.Bytes.Cursor
import Telemetry.Channel.Candidate
import Telemetry.Decode.Event

/-!
The trace of a decode: everything it has to tell, in order. Events, candidates and the other parts
are views of one trace, so that their order among each other is kept.
-/

namespace Telemetry.Decode

structure Handoff where
  handler : String
  field : String
  bytes : List UInt8
deriving DecidableEq, Repr

inductive Item where
  | reading (id : Nat) (s : Layout.Scalar) (dn : Value)
  | event (e : Event)
  | candidate (c : Candidate)
  | handoff (h : Handoff)
  | notice (n : Notice)
  | defect (e : DefinitionError)
deriving DecidableEq, Repr

namespace Item

def event? : Item → Option Event
  | event e => some e
  | _ => none

def candidate? : Item → Option Candidate
  | candidate c => some c
  | _ => none

def handoff? : Item → Option Handoff
  | handoff h => some h
  | _ => none

def notice? : Item → Option Notice
  | notice n => some n
  | _ => none

def defect? : Item → Option DefinitionError
  | defect e => some e
  | _ => none

end Item

structure Remembered where
  counts : List (Nat × Nat) := []
deriving DecidableEq, Repr

namespace Remembered

def get? (r : Remembered) (id : Nat) : Option Nat := r.counts.lookup id

def set (r : Remembered) (id count : Nat) : Remembered :=
  ⟨(id, count) :: r.counts.filter fun p => p.1 != id⟩

theorem get?_set (r : Remembered) (id count other : Nat) :
    (r.set id count).get? other = if other = id then some count else r.get? other := by
  obtain ⟨counts⟩ := r
  simp only [get?, set]
  induction counts with
  | nil => grind
  | cons p rest ih => grind

end Remembered

structure State where
  cursor : Bytes.Cursor
  remembered : Remembered
deriving DecidableEq

namespace State

def start (data : List UInt8) : State := ⟨.ofBytes data, {}⟩

def hasMore (s : State) : Bool := s.cursor.hasMore

def remaining (s : State) : Nat := s.cursor.remaining

def advance (s : State) (n : Nat) : State := { s with cursor := s.cursor.advance n }

@[simp] theorem cursor_advance (s : State) (n : Nat) :
    (s.advance n).cursor = s.cursor.advance n := rfl

theorem hasMore_iff (s : State) : s.hasMore = true ↔ 0 < s.remaining := s.cursor.hasMore_iff

theorem hasMore_eq_false_iff (s : State) : s.hasMore = false ↔ s.remaining = 0 := by
  rw [← Bool.not_eq_true, hasMore_iff]
  omega

end State

structure Yield (α : Type) where
  items : List α
  state : State

abbrev Step (α : Type) := State → Yield α

namespace Step

def tell {α : Type} (items : List α) : Step α := fun s => ⟨items, s⟩

def andThen {α : Type} (a b : Step α) : Step α := fun s =>
  let y := a s
  let z := b y.state
  ⟨y.items ++ z.items, z.state⟩

def sequence {α : Type} : List (Step α) → Step α
  | [] => tell []
  | step :: steps => step.andThen (sequence steps)

def whereData {α : Type} (items : List α) (step : Step α) : Step α := fun s =>
  if s.hasMore then step s else ⟨items, s⟩

def whileData {α : Type} (cut : Nat → α) : List (Step α) → Step α
  | [] => tell []
  | step :: steps => whereData [cut (steps.length + 1)] (step.andThen (whileData cut steps))

def mapItems {α β : Type} (f : List α → List β) (step : Step α) : Step β := fun s =>
  let y := step s
  ⟨f y.items, y.state⟩

section Closed

variable {α : Type} {P : Step α → Prop} {steps : List (Step α)}

theorem sequence_of_forall (tell : P (tell [])) (andThen : ∀ {a b}, P a → P b → P (a.andThen b))
    (h : ∀ a ∈ steps, P a) : P (sequence steps) := by
  induction steps with
  | nil => exact tell
  | cons a steps ih =>
    exact andThen (h a List.mem_cons_self) (ih fun b hb => h b (List.mem_cons_of_mem _ hb))

theorem whileData_of_forall {cut : Nat → α} (tell : P (tell []))
    (andThen : ∀ {a b}, P a → P b → P (a.andThen b))
    (whereData : ∀ {a} n, P a → P (a.whereData [cut n])) (h : ∀ a ∈ steps, P a) :
    P (whileData cut steps) := by
  induction steps with
  | nil => exact tell
  | cons a steps ih =>
    apply whereData
    exact andThen (h a List.mem_cons_self) (ih fun b hb => h b (List.mem_cons_of_mem _ hb))

end Closed

end Step

inductive Piece where
  | sample (offset : Nat) (v : Value)
  | item (i : Item)

def lineSize (f : PrintFormat) : Nat := max f.placeholders 1

def lastLine (f : PrintFormat) (offset : Nat) (values : List Value) : List Item :=
  if values.isEmpty then []
  else [.event (.line offset ((f.truncated values.length).render values))]

/-- The pieces with their values gathered into lines, each where its last value was; `values` are
those of the line begun, and `offset` is that of the first of them. -/
def gatherLines (f : PrintFormat) (offset : Nat) (values : List Value) : List Piece → List Item
  | [] => lastLine f offset values
  | .item i :: rest => i :: gatherLines f offset values rest
  | .sample o v :: rest =>
    let first := if values.isEmpty then o else offset
    let line := values ++ [v]
    if line.length = lineSize f then
      .event (.line first (f.render line)) :: gatherLines f 0 [] rest
    else gatherLines f first line rest

def lines (f : PrintFormat) (pieces : List Piece) : List Item := gatherLines f 0 [] pieces

end Telemetry.Decode
