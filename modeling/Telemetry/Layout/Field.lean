import Telemetry.DataType
import Telemetry.Resolution

namespace Telemetry

inductive TagKind where
  | absolute
  | base
  | delta
deriving DecidableEq, Repr

def TagKind.display : TagKind → String
  | .absolute => "ABSOLUTE"
  | .base => "BASE"
  | .delta => "DELTA"

namespace Layout

def fillName : String := "fill"

structure Scalar where
  name : String
  dataType : DataType
  attrs : Attributes := {}
  lengthBytes : Option Nat := none
  channel : Option String := none
  tag : Option TagKind := none
deriving DecidableEq, Repr

namespace Scalar

def fill (bytes : Nat) : Scalar := { name := fillName, dataType := .ofBits .fill (bytes * 8) }

def isFill (s : Scalar) : Bool := s.name == fillName || s.dataType.base == .fill

end Scalar

structure BitField where
  name : String
  bitLen : Nat
  attrs : Attributes := {}
deriving DecidableEq, Repr

structure Group where
  name : String
  typeName : Option String := none
  printFormat : Option PrintFormat := none
deriving DecidableEq, Repr

inductive ArrayLength where
  | fixed (count : Nat)
  | inData (lengthBytes : Nat) (inBytes : Bool)
  | ofField (id : Nat)
  | untilExhausted
deriving DecidableEq, Repr

structure Series where
  name : String
  length : ArrayLength
  labels : List String := []
  labelTable : Option Enumeration := none
  printFormat : Option PrintFormat := none
deriving DecidableEq, Repr

def Series.label (s : Series) (index : Nat) : String :=
  match s.labels[index]? with
  | some label => label
  | none =>
    (s.labelTable.bind fun table => table.lookup (Int64.ofNat index).toInt).getD
      (String.ofList (Number.digits index))

structure Window where
  name : String
  bitLen : Nat
deriving DecidableEq, Repr

def Window.byteLen (w : Window) : Nat := DataType.bytesFor w.bitLen

inductive StreamDisplay where
  | none
  | text
  | hexDump
deriving DecidableEq, Repr

structure Stream where
  name : String
  maxLen : Option Nat
  display : StreamDisplay := .none
  handler : Option String := none
deriving DecidableEq, Repr

inductive Kind where
  | scalar
  | bit
  | group
  | array
  | bitArray
  | stream
deriving DecidableEq, Repr

inductive Entry where
  | scalar (s : Scalar)
  | bit (b : BitField)
  | group (g : Group) (children : List Nat)
  | array (s : Series) (elements : List Nat)
  | bitArray (w : Window) (children : List Nat)
  | stream (s : Stream)
deriving DecidableEq, Repr

namespace Entry

def name : Entry → String
  | scalar s => s.name
  | bit b => b.name
  | group g _ => g.name
  | array s _ => s.name
  | bitArray w _ => w.name
  | stream s => s.name

def kind : Entry → Kind
  | scalar _ => .scalar
  | bit _ => .bit
  | group .. => .group
  | array .. => .array
  | bitArray .. => .bitArray
  | stream _ => .stream

def children : Entry → List Nat
  | group _ cs | array _ cs | bitArray _ cs => cs
  | scalar _ | bit _ | stream _ => []

end Entry

abbrev Arena := Array Entry

inductive Field where
  | scalar (id : Nat) (s : Scalar)
  | bit (id : Nat) (b : BitField)
  | group (id : Nat) (g : Group) (children : List Field)
  | array (id : Nat) (s : Series) (elements : List Field)
  | bitArray (id : Nat) (w : Window) (children : List Field)
  | stream (id : Nat) (s : Stream)

namespace Field

def id : Field → Nat
  | scalar id _ | bit id _ | group id _ _ | array id _ _ | bitArray id _ _ | stream id _ => id

def name : Field → String
  | scalar _ s => s.name
  | bit _ b => b.name
  | group _ g _ => g.name
  | array _ s _ => s.name
  | bitArray _ w _ => w.name
  | stream _ s => s.name

def kind : Field → Kind
  | scalar .. => .scalar
  | bit .. => .bit
  | group .. => .group
  | array .. => .array
  | bitArray .. => .bitArray
  | stream .. => .stream

def children : Field → List Field
  | group _ _ cs | array _ _ cs | bitArray _ _ cs => cs
  | scalar .. | bit .. | stream .. => []

def bit? : Field → Option BitField
  | bit _ b => some b
  | _ => none

mutual

def size : Field → Option Nat
  | scalar _ s => if s.lengthBytes.isSome then none else s.dataType.byteLen
  | bit .. => none
  | group _ _ children => sizes children
  | array _ s elements =>
    match s.length with
    | .fixed count => (sizes elements).map (· * count)
    | _ => none
  | bitArray _ w _ => some w.byteLen
  | stream .. => none

def sizes : List Field → Option Nat
  | [] => some 0
  | f :: fs => f.size.bind fun n => (sizes fs).map (n + ·)

end

mutual

def preorder : Field → List Field
  | group id g children => group id g children :: preorders children
  | array id s elements => array id s elements :: preorders elements
  | bitArray id w children => bitArray id w children :: preorders children
  | scalar id s => [scalar id s]
  | bit id b => [bit id b]
  | stream id s => [stream id s]

def preorders : List Field → List Field
  | [] => []
  | f :: fs => preorder f ++ preorders fs

end

@[elab_as_elim]
theorem induction {motive : Field → Prop} (f : Field)
    (scalar : ∀ id s, motive (.scalar id s)) (bit : ∀ id b, motive (.bit id b))
    (group : ∀ id g children, (∀ c ∈ children, motive c) → motive (.group id g children))
    (array : ∀ id s elements, (∀ c ∈ elements, motive c) → motive (.array id s elements))
    (bitArray : ∀ id w children, (∀ c ∈ children, motive c) → motive (.bitArray id w children))
    (stream : ∀ id s, motive (.stream id s)) : motive f := by
  refine Field.rec (motive_1 := motive) (motive_2 := fun fs => ∀ c ∈ fs, motive c)
    scalar bit group array bitArray stream ?_ ?_ f
  · intro c hc
    cases hc
  · intro f fs hf hfs c hc
    cases hc with
    | head => exact hf
    | tail _ hc => exact hfs c hc

theorem preorders_eq_flatMap (fs : List Field) : preorders fs = fs.flatMap preorder := by
  induction fs with
  | nil => rfl
  | cons f fs ih => rw [preorders, ih, List.flatMap_cons]

theorem preorder_eq (f : Field) : f.preorder = f :: f.children.flatMap preorder := by
  cases f <;> simp only [preorder, children, preorders_eq_flatMap, List.flatMap_nil]

theorem forall_mem_preorder {p : Field → Prop} {f : Field} :
    (∀ g ∈ f.preorder, p g) ↔ p f ∧ ∀ c ∈ f.children, ∀ g ∈ c.preorder, p g := by
  rw [preorder_eq, List.forall_mem_cons, List.forall_mem_flatMap]

end Field
end Layout
end Telemetry
