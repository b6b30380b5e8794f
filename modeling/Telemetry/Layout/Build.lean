import Telemetry.Layout.Field

/-!
Layouts from arenas. Building checks every field that the root reaches, a parent before its
children, and makes the tree of those that pass.
-/

namespace Telemetry.Layout

inductive Refusal where
  | defect (e : DefinitionError)
  /-- Measuring stopped at this index, where there is no field or the path has come back to one that
  it has passed: the elements of an array counted in bytes are measured before the order of their
  own children is checked. -/
  | unmeasurable (id : Nat)
deriving DecidableEq, Repr

def sumSizes (size : Nat → Except Nat (Option Nat)) : List Nat → Except Nat (Option Nat)
  | [] => .ok (some 0)
  | c :: cs =>
    match size c with
    | .error id => .error id
    | .ok none => .ok none
    | .ok (some n) => (sumSizes size cs).map (Option.map (n + ·))

/-- The size of a field as `Field.size` has it, whatever the order of the children. A path longer
than the arena, `limit` being its length, comes back to a field it has passed. -/
def sizeIn (arena : Arena) : (limit : Nat) → (id : Nat) → Except Nat (Option Nat)
  | 0, id => .error id
  | limit + 1, id =>
    match arena[id]? with
    | none => .error id
    | some (.scalar s) => .ok (if s.lengthBytes.isSome then none else s.dataType.byteLen)
    | some (.bitArray w _) => .ok (some w.byteLen)
    | some (.group _ children) => sumSizes (sizeIn arena limit) children
    | some (.array s elements) =>
      match s.length with
      | .fixed count => (sumSizes (sizeIn arena limit) elements).map (Option.map (· * count))
      | _ => .ok none
    | some (.bit _) | some (.stream _) => .ok none

def defect {α : Type} (e : DefinitionError) : Except Refusal α := .error (.defect e)

def variableLength (b : BaseType) : Bool := b == .text || b == .unknown || b == .fill

def checkLength (s : Scalar) : Except DefinitionError Unit :=
  match s.lengthBytes with
  | none => .ok ()
  | some bytes => do
    (DataType.unsignedBytes bytes).check s.name
    if variableLength s.dataType.base then return ()
    else throw (.unsupportedType s.name s.dataType.base s.dataType.bitLen)

def checkScalar (s : Scalar) : Except DefinitionError Unit := do
  if !s.isFill then s.dataType.check s.name
  checkLength s

def checkBit (parent : Option Kind) (b : BitField) : Except DefinitionError Unit :=
  if parent ≠ some .bitArray then .error (.orphanBit b.name)
  else if b.bitLen = 0 ∨ 64 < b.bitLen then .error (.bitLength b.name b.bitLen)
  else .ok ()

def sumBits (parent : String) : List Entry → Except DefinitionError Nat
  | [] => .ok 0
  | .bit b :: es => (sumBits parent es).map (b.bitLen + ·)
  | e :: _ => .error (.notABit parent e.name)

def checkBitArray (arena : Arena) (w : Window) (children : List Nat) :
    Except DefinitionError Unit := do
  let actual ← sumBits w.name (children.filterMap (arena[·]?))
  if actual = w.bitLen then return () else throw (.bitArrayWidth w.name w.bitLen actual)

def countsRepetitions : Option Entry → Bool
  | some (.scalar s) =>
    s.dataType.base == .unsigned || s.dataType.base == .signed || s.dataType.base == .enumerated
  | _ => false

def nameOf (arena : Arena) (id : Nat) : String :=
  match arena[id]? with
  | some e => e.name
  | none => "#" ++ String.ofList (Number.digits id)

def checkArray (arena : Arena) (s : Series) (elements : List Nat) : Except Refusal Unit :=
  if elements.isEmpty then defect (.emptyArray s.name)
  else match s.length with
    | .fixed _ | .untilExhausted => .ok ()
    | .ofField id =>
      if countsRepetitions arena[id]? then .ok ()
      else defect (.unknownLengthField s.name (nameOf arena id))
    | .inData bytes inBytes =>
      match (DataType.unsignedBytes bytes).check s.name with
      | .error e => defect e
      | .ok () =>
        if inBytes then
          match sumSizes (sizeIn arena arena.size) elements with
          | .error id => .error (.unmeasurable id)
          | .ok (some (_ + 1)) => .ok ()
          | .ok _ => defect (.variableElementSize s.name)
        else .ok ()

def checkEntry (arena : Arena) (parent : Option Kind) : Entry → Except Refusal Unit
  | .scalar s => (checkScalar s).mapError .defect
  | .bit b => (checkBit parent b).mapError .defect
  | .bitArray w children => (checkBitArray arena w children).mapError .defect
  | .array s elements => checkArray arena s elements
  | .group .. | .stream _ => .ok ()

def Entry.field (id : Nat) (children : List Field) : Entry → Field
  | .scalar s => .scalar id s
  | .bit b => .bit id b
  | .group g _ => .group id g children
  | .array s _ => .array id s children
  | .bitArray w _ => .bitArray id w children
  | .stream s => .stream id s

def growBelow (arena : Arena) : (bound : Nat) → Option Kind → (id : Nat) → Except Refusal Field
  | 0, _, id => defect (.unknownChild "" id)
  | bound + 1, parent, id =>
    match arena[id]? with
    | none => defect (.unknownChild "" id)
    | some entry =>
      match entry.children.find? (id ≤ ·) with
      | some child => defect (.unknownChild entry.name child)
      | none => do
        checkEntry arena parent entry
        let children ← entry.children.mapM (growBelow arena bound (some entry.kind))
        return entry.field id children

def grow (arena : Arena) (id : Nat) : Except Refusal Field := growBelow arena (id + 1) none id

end Layout

structure Layout where
  arena : Layout.Arena
  root : Layout.Field

namespace Layout

def build (arena : Arena) (root : Nat) : Except Refusal Layout :=
  (grow arena root).map fun field => ⟨arena, field⟩

def find? (l : Layout) (name : String) : Option Nat := l.arena.findIdx? fun e => e.name == name

end Telemetry.Layout
