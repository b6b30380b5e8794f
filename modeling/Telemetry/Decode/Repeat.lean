import Telemetry.Decode.Trace

namespace Telemetry.Decode

inductive Stop where
  | complete
  | exhausted
  | stalled
deriving DecidableEq, Repr

structure Laps (α : Type) where
  runs : List (List α)
  state : State
  stop : Stop

namespace Laps

def first {α : Type} (run : List α) (rest : Laps α) : Laps α :=
  { rest with runs := run :: rest.runs }

def counted {α : Type} (lap : Nat → Step α) : (count index : Nat) → State → Laps α
  | 0, _, s => ⟨[], s, .complete⟩
  | count + 1, index, s =>
    if s.hasMore then
      let y := lap index s
      first y.items (counted lap count (index + 1) y.state)
    else ⟨[], s, .exhausted⟩

def untilExhausted {α : Type} (lap : Nat → Step α) (index : Nat) (s : State) : Laps α :=
  if s.hasMore then
    let y := lap index s
    if y.state.remaining < s.remaining then
      first y.items (untilExhausted lap (index + 1) y.state)
    else ⟨[y.items], y.state, .stalled⟩
  else ⟨[], s, .exhausted⟩
termination_by s.remaining

theorem untilExhausted_of_lt {α : Type} {lap : Nat → Step α} {index : Nat} {s : State}
    (hm : s.hasMore = true) (h : (lap index s).state.remaining < s.remaining) :
    untilExhausted lap index s =
      first (lap index s).items (untilExhausted lap (index + 1) (lap index s).state) := by
  rw [untilExhausted, if_pos hm]
  exact dif_pos h

theorem untilExhausted_of_stalled {α : Type} {lap : Nat → Step α} {index : Nat} {s : State}
    (hm : s.hasMore = true) (h : ¬(lap index s).state.remaining < s.remaining) :
    untilExhausted lap index s = ⟨[(lap index s).items], (lap index s).state, .stalled⟩ := by
  rw [untilExhausted, if_pos hm]
  exact dif_neg h

theorem untilExhausted_of_no_more {α : Type} {lap : Nat → Step α} {index : Nat} {s : State}
    (hm : s.hasMore = false) : untilExhausted lap index s = ⟨[], s, .exhausted⟩ := by
  rw [untilExhausted, if_neg (by simp [hm])]

def run {α : Type} (lap : Nat → Step α) (count : Option Nat) (s : State) : Laps α :=
  match count with
  | some n => counted lap n 0 s
  | none => untilExhausted lap 0 s

end Laps
end Telemetry.Decode
