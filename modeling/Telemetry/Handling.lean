/-!
Waiting for the programs that handle streams, which run while decoding goes on. Each job holds a
place in the group that is open when it is handed over. A wait takes the open group, leaves a fresh
one, and returns once no place of the group it took is held.
-/

namespace Telemetry.Handling

inductive Action where
  | dispatch (job : Nat)
  | complete (job : Nat)
  | startWait (wait : Nat)
  | endWait (wait : Nat)
deriving DecidableEq, Repr

structure Pool where
  openGroup : Nat := 0
  running : List (Nat × Nat) := []
  waiting : List (Nat × Nat) := []
deriving DecidableEq, Repr

namespace Pool

def isHeld (p : Pool) (group : Nat) : Bool := p.running.any fun j => j.2 == group

def isRunning (p : Pool) (job : Nat) : Bool := p.running.any fun j => j.1 == job

def step? (p : Pool) : Action → Option Pool
  | .dispatch job =>
    if p.isRunning job then none
    else some { p with running := (job, p.openGroup) :: p.running }
  | .complete job =>
    if p.isRunning job then some { p with running := p.running.filter fun j => j.1 != job }
    else none
  | .startWait wait =>
    if (p.waiting.lookup wait).isSome then none
    else some { p with openGroup := p.openGroup + 1, waiting := (wait, p.openGroup) :: p.waiting }
  | .endWait wait =>
    match p.waiting.lookup wait with
    | none => none
    | some group =>
      if p.isHeld group then none
      else some { p with waiting := p.waiting.filter fun w => w.1 != wait }

def run? (p : Pool) : List Action → Option Pool
  | [] => some p
  | a :: as => (p.step? a).bind fun p => run? p as

end Pool
end Telemetry.Handling
