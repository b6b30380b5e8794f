import Telemetry.Time.Timestamp

namespace Telemetry.CommandLine

inductive OutputFormat where
  | json
  | text
deriving DecidableEq, Repr

structure DecodeRequest where
  definition : String
  input : String
  format : OutputFormat := .text
  channels : Bool := false
  spacecraft : Nat := 0
  productId : Option String := none
  station : Nat := 0
  virtualChannel : Nat := 0
  clockOrigin : Epoch := .unix
  solarTime : Bool := false
  realtime : Bool := false
  streamHandlers : Bool := false

inductive Command where
  | describe (definition : String)
  | decode (r : DecodeRequest)

def Command.paths : Command → List String
  | .describe definition => [definition]
  | .decode r => [r.definition, r.input]

inductive Setting where
  | format
  | spacecraft
  | productId
  | station
  | virtualChannel
  | clockOrigin
deriving DecidableEq, Repr

inductive Switch where
  | channels
  | solarTime
  | realtime
  | streamHandlers
deriving DecidableEq, Repr

inductive Choice where
  | setting (s : Setting)
  | switch (s : Switch)
deriving DecidableEq, Repr

def longOptions : List (String × Choice) :=
  [("format", .setting .format), ("scid", .setting .spacecraft),
    ("product-id", .setting .productId), ("station", .setting .station),
    ("vcid", .setting .virtualChannel), ("sclk-epoch", .setting .clockOrigin),
    ("channels", .switch .channels), ("lst", .switch .solarTime),
    ("realtime", .switch .realtime), ("stream-handlers", .switch .streamHandlers)]

def shortOptions : List (Char × Choice) :=
  [('f', .setting .format), ('c', .switch .channels)]

structure Sorted where
  positional : List String := []
  settings : List (Setting × String) := []
  switches : List Switch := []

inductive Form where
  | separator
  | long (name : String) (value : Option String)
  | short (letters : List Char)
  | plain
deriving DecidableEq, Repr

def Form.ofArgument (arg : String) : Form :=
  match arg.toList with
  | ['-', '-'] => .separator
  | '-' :: '-' :: cs =>
    let name := String.ofList (cs.takeWhile (· != '='))
    match cs.dropWhile (· != '=') with
    | [] => .long name none
    | _ :: value => .long name (some (String.ofList value))
  | '-' :: c :: cs => .short (c :: cs)
  | _ => .plain

structure Opened where
  sorted : Sorted
  awaiting : Option Setting

def openShort (s : Sorted) : List Char → Option Opened
  | [] => some ⟨s, none⟩
  | c :: cs =>
    match shortOptions.lookup c, cs with
    | none, _ => none
    | some (.switch x), cs => openShort { s with switches := x :: s.switches } cs
    | some (.setting x), [] => some ⟨s, some x⟩
    | some (.setting x), '=' :: cs =>
      some ⟨{ s with settings := (x, String.ofList cs) :: s.settings }, none⟩
    | some (.setting x), cs =>
      some ⟨{ s with settings := (x, String.ofList cs) :: s.settings }, none⟩

def openLong (s : Sorted) (name : String) (value : Option String) : Option Opened :=
  match longOptions.lookup name, value with
  | some (.setting x), some v => some ⟨{ s with settings := (x, v) :: s.settings }, none⟩
  | some (.setting x), none => some ⟨s, some x⟩
  | some (.switch x), none => some ⟨{ s with switches := x :: s.switches }, none⟩
  | _, _ => none

def sortFrom (o : Opened) : List String → Option Sorted
  | [] => if o.awaiting.isNone then some o.sorted else none
  | arg :: rest =>
    let s := o.sorted
    match o.awaiting, Form.ofArgument arg with
    | some x, .plain => sortFrom ⟨{ s with settings := (x, arg) :: s.settings }, none⟩ rest
    | some _, _ => none
    | none, .separator => some { s with positional := s.positional ++ rest }
    | none, .plain => sortFrom ⟨{ s with positional := s.positional ++ [arg] }, none⟩ rest
    | none, .long name value => (openLong s name value).bind fun o => sortFrom o rest
    | none, .short letters => (openShort s letters).bind fun o => sortFrom o rest

def Sorted.unambiguous (s : Sorted) : Bool :=
  decide (s.settings.map (·.1)).Nodup && decide s.switches.Nodup

def word? (text : String) : Option Nat :=
  match text.toList with
  | '+' :: cs => (Number.natural? cs).filter (· < UInt16.size)
  | '-' :: cs => (Number.natural? cs).filter (· == 0)
  | cs => (Number.natural? cs).filter (· < UInt16.size)

def format? : String → Option OutputFormat
  | "json" => some .json
  | "text" => some .text
  | _ => none

def Sorted.value {α : Type} (s : Sorted) (x : Setting) (default : α) (read : String → Option α) :
    Option α :=
  match s.settings.lookup x with
  | none => some default
  | some text => read text

def decodeRequest? (definition input : String) (s : Sorted) : Option DecodeRequest := do
  let format ← s.value .format .text format?
  let spacecraft ← s.value .spacecraft 0 word?
  let productId ← s.value .productId none (some ∘ some)
  let station ← s.value .station 0 word?
  let virtualChannel ← s.value .virtualChannel 0 word?
  let clockOrigin ← s.value .clockOrigin .unix Timestamp.parse?
  let on := s.switches.contains
  return { definition, input, format, channels := on .channels, spacecraft, productId, station
           virtualChannel, clockOrigin, solarTime := on .solarTime, realtime := on .realtime
           streamHandlers := on .streamHandlers }

def command? : List String → Option Command
  | "describe" :: args => do
    let s ← sortFrom ⟨{}, none⟩ args
    match s.positional, s.settings, s.switches with
    | [definition], [], [] => if definition.isEmpty then none else some (.describe definition)
    | _, _, _ => none
  | "decode" :: args => do
    let s ← sortFrom ⟨{}, none⟩ args
    match s.positional with
    | [definition, input] =>
      if definition.isEmpty || input.isEmpty || !s.unambiguous then none
      else (decodeRequest? definition input s).map .decode
    | _ => none
  | _ => none

end Telemetry.CommandLine
