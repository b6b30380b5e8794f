import Telemetry.Bytes.HexDump
import Telemetry.Decode.Repeat
import Telemetry.Decode.Scalar
import Telemetry.Decode.Trace
import Telemetry.Layout.Build

/-!
Decoding of a layout's fields over the bytes of a product.
-/

namespace Telemetry.Decode

open Layout (Scalar BitField Window Field Group Series Stream)

structure Options where
  calculator : Option Calculator := none
  channels : Bool := true

def complaint (name : String) (dn : Value) : Resolution → List Notice
  | .failed e => [.calibrationFailed name dn e]
  | _ => []

def shown (o : Options) (name : String) (attrs : Attributes) (dn : Value) : List Item :=
  let r := Resolution.resolve o.calculator attrs dn
  (complaint name dn r).map Item.notice ++ [.event (.value name (r.shown attrs dn) attrs.unit)]

def sampled (o : Options) (resolved : Bool) (offset : Nat) (name : String) (attrs : Attributes)
    (dn : Value) : List Piece :=
  if resolved then
    let r := Resolution.resolve o.calculator attrs dn
    (complaint name dn r).map (.item ∘ .notice) ++ [.sample offset (r.value dn)]
  else [.sample offset dn]

def scalarStep (o : Options) (id : Nat) (s : Scalar) : Step Item := fun st =>
  let r := readScalar o.channels id s st
  ⟨r.items ++ (r.dn.map (shown o s.name s.attrs)).getD [], r.state⟩

def bitsStep (o : Options) (w : Window) (bits : List BitField) : Step Item := fun st =>
  let r := readBits w bits st
  ⟨r.notices.map Item.notice ++ r.values.flatMap fun (b, dn) => shown o b.name b.attrs dn, r.state⟩

/-- The values of a field for the print format around it. Fields other than scalars and bit arrays
have none, and are shown as they are by `plain`. -/
def gather (o : Options) (resolved : Bool) (f : Field) (plain : Step Item) : Step Piece :=
  match f with
  | .scalar id s => fun st =>
    let r := readScalar o.channels id s st
    let samples := (r.dn.map (sampled o resolved st.cursor.offset s.name s.attrs)).getD []
    ⟨r.items.map .item ++ samples, r.state⟩
  | .bitArray _ w children => fun st =>
    let r := readBits w (children.filterMap Field.bit?) st
    let samples := r.values.flatMap fun (b, dn) =>
      sampled o resolved st.cursor.offset b.name b.attrs dn
    ⟨r.notices.map (.item ∘ .notice) ++ samples, r.state⟩
  | _ => plain.mapItems (·.map .item)

def gathers (o : Options) (resolved : Bool) (fields : List Field) (plain : List (Step Item)) :
    List (Step Piece) :=
  List.zipWith (gather o resolved) fields plain

/-- The children in order, between brackets or as lines of the group's print format, which show
data numbers as they are. -/
def groupStep (o : Options) (g : Group) (children : List Field) (plain : List (Step Item)) :
    Step Item :=
  match g.printFormat with
  | none =>
    (Step.tell [.event (.groupStart g.name)]).andThen <|
      (Step.whileData (.notice ∘ .structureCut g.name) plain).andThen <|
        Step.tell [.event (.groupEnd g.name)]
  | some format =>
    (Step.whileData (.item ∘ .notice ∘ .structureCut g.name)
      (gathers o false children plain)).mapItems (lines format)

structure Count where
  count : Option (Option Nat)
  notices : List Notice
  state : State

def elementsIn (bytes : Nat) (elements : List Field) : Nat :=
  bytes / max ((Field.sizes elements).getD 1) 1

def readCount (s : Series) (elements : List Field) (st : State) : Count :=
  match s.length with
  | .fixed n => ⟨some (some n), [], st⟩
  | .untilExhausted => ⟨some none, [], st⟩
  | .ofField id =>
    match st.remembered.get? id with
    | some n => ⟨some (some n), [], st⟩
    | none => ⟨some (some 0), [.noLength s.name], st⟩
  | .inData width inBytes =>
    match st.cursor.readNat width with
    | .error _ => ⟨none, [.noArrayPrefix s.name st.remaining], st.advance st.remaining⟩
    | .ok (n, cursor) =>
      ⟨some (some (if inBytes then elementsIn n elements else n)), [], { st with cursor }⟩

def isPadding : List Field → Bool
  | [element] => element.name == Layout.fillName
  | _ => false

def paddingLength (count : Option Nat) (elements : List Field) (st : State) : Nat :=
  match count, Field.sizes elements with
  | some n, some size => n * size
  | _, _ => st.remaining

def isUniform : List Field → Bool
  | [.scalar ..] => true
  | _ => false

def stopNotices (s : Series) (count : Option Nat) (laps : Nat) : Stop → List Notice
  | .complete => []
  | .exhausted =>
    match count with
    | some n => [.arrayCut s.name laps n]
    | none => []
  | .stalled => [.arrayStalled s.name laps]

def labelled (s : Series) (plain : List (Step Item)) (index : Nat) : Step Item :=
  let label := s.label index
  (Step.tell [.event (.indexStart label)]).andThen <|
    (Step.sequence plain).andThen <| Step.tell [.event (.indexEnd label)]

def repetitions (o : Options) (s : Series) (elements : List Field) (plain : List (Step Item))
    (count : Option Nat) (st : State) : Yield Item :=
  match s.printFormat with
  | none =>
    let laps := Laps.run (labelled s plain) count st
    let notices := stopNotices s count laps.runs.length laps.stop
    ⟨laps.runs.flatten ++ notices.map Item.notice, laps.state⟩
  | some format =>
    let steps := gathers o (isUniform elements) elements plain
    let laps := Laps.run (fun _ => Step.sequence steps) count st
    let notices := stopNotices s count laps.runs.length laps.stop
    ⟨lines format (laps.runs.flatten ++ (notices.map Item.notice).map .item), laps.state⟩

def shortNotices (s : Series) (size : Option Nat) (consumed : Nat) : List Notice :=
  match size with
  | some expected =>
    if consumed < expected then [.arrayShort s.name (expected - consumed)] else []
  | none => []

def elementsStep (o : Options) (id : Nat) (s : Series) (elements : List Field)
    (plain : List (Step Item)) (start : Nat) : (count : Option (Option Nat)) → Step Item
  | none => Step.tell []
  | some count => fun st =>
    if isPadding elements then ⟨[], st.advance (paddingLength count elements st)⟩
    else
      let y := repetitions o s elements plain count st
      let notices := shortNotices s (Field.array id s elements).size (y.state.cursor.offset - start)
      ⟨.event (.arrayStart s.name count) :: y.items ++
        .event (.arrayEnd s.name) :: notices.map Item.notice, y.state⟩

def arrayStep (o : Options) (id : Nat) (s : Series) (elements : List Field)
    (plain : List (Step Item)) : Step Item := fun st =>
  let c := readCount s elements st
  let y := elementsStep o id s elements plain st.cursor.offset c.count c.state
  ⟨c.notices.map Item.notice ++ y.items, y.state⟩

def displayed (s : Stream) (offset : Nat) (bytes : List UInt8) : List Item :=
  match s.display with
  | .none => []
  | .text => [.event (.value s.name (.text (textValue bytes)) none)]
  | .hexDump => (Bytes.HexDump.lines offset bytes).map fun (o, l) => .event (.address o l)

def streamStep (s : Stream) : Step Item := fun st =>
  let length := min (s.maxLen.getD st.remaining) st.remaining
  let bytes := st.cursor.rest.take length
  let handoff := match s.handler with
    | some handler => [Item.handoff ⟨handler, s.name, bytes⟩]
    | none => []
  ⟨displayed s st.cursor.offset bytes ++ handoff, st.advance length⟩

mutual

def field (o : Options) : Field → Step Item
  | .scalar id s => scalarStep o id s
  | .bit _ b => Step.tell [.defect (.orphanBit b.name)]
  | .bitArray _ w children => bitsStep o w (children.filterMap Field.bit?)
  | .group _ g children => groupStep o g children (fields o children)
  | .array id s elements => arrayStep o id s elements (fields o elements)
  | .stream _ s => streamStep s

def fields (o : Options) : List Field → List (Step Item)
  | [] => []
  | f :: fs => field o f :: fields o fs

end

def gathered (o : Options) (resolved : Bool) (f : Field) : Step Piece :=
  gather o resolved f (field o f)

theorem fields_eq_map (o : Options) (fs : List Field) : fields o fs = fs.map (field o) := by
  induction fs with
  | nil => rfl
  | cons f fs ih => rw [fields, ih, List.map_cons]

theorem gathers_fields (o : Options) (resolved : Bool) (fs : List Field) :
    gathers o resolved fs (fields o fs) = fs.map (gathered o resolved) := by
  induction fs with
  | nil => rfl
  | cons f fs ih => exact congrArg (gathered o resolved f :: ·) ih

theorem forall_mem_fields {o : Options} {fs : List Field} {P : Step Item → Prop}
    (h : ∀ f ∈ fs, P (field o f)) : ∀ a ∈ fields o fs, P a := by
  rw [fields_eq_map]
  exact List.forall_mem_map.mpr h

theorem forall_mem_gathers {o : Options} {resolved : Bool} {fs : List Field} {P : Step Piece → Prop}
    (h : ∀ f ∈ fs, P (gathered o resolved f)) : ∀ a ∈ gathers o resolved fs (fields o fs), P a := by
  rw [gathers_fields]
  exact List.forall_mem_map.mpr h

end Decode

structure Decoded where
  trace : List Decode.Item
  consumed : Nat

namespace Decoded

def events (d : Decoded) : List Event := d.trace.filterMap Decode.Item.event?

def candidates (d : Decoded) : List Candidate := d.trace.filterMap Decode.Item.candidate?

def handoffs (d : Decoded) : List Decode.Handoff := d.trace.filterMap Decode.Item.handoff?

def notices (d : Decoded) : List Notice := d.trace.filterMap Decode.Item.notice?

end Decoded

/-- Decodes one product. Data that does not fit the layout is told of and decoded as far as it
goes; a layout that cannot be decoded is an error. -/
def Layout.decode (l : Layout) (o : Decode.Options) (data : List UInt8) :
    Except DefinitionError Decoded :=
  let y := Decode.field o l.root (.start data)
  match y.items.findSome? Decode.Item.defect? with
  | some e => .error e
  | none => .ok ⟨y.items, y.state.cursor.offset⟩

end Telemetry
