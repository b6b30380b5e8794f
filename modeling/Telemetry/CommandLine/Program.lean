import Telemetry.Channel.Transport
import Telemetry.CommandLine.Arguments
import Telemetry.Decode.Field
import Telemetry.Layout.DefinitionReader
import Telemetry.Layout.Outline
import Telemetry.Report.Samples
import Telemetry.Report.Text
import Telemetry.Time.SolarTime

namespace Telemetry.CommandLine

inductive ProgramResult where
  | succeeded
  | exited (status : String)
  | failed (error : String)
deriving DecidableEq, Repr

inductive ReadError where
  | missing
  | notDirectory
  | nameTooLong
  | denied
  | directory
  | other (reason : String)
deriving DecidableEq, Repr

structure Host where
  read : String → Except ReadError (List UInt8)
  handle : Decode.Handoff → ProgramResult
  now : String
  logLevel : Option Log.Level

structure Output where
  status : Nat
  stdout : String
  stderr : String
deriving DecidableEq, Repr

structure Failure where
  message : String
  cause : Option String := none
deriving DecidableEq, Repr

def indentedCause (cause : String) : String :=
  String.ofList (cause.toList.flatMap fun c => if c = '\n' then '\n' :: "    ".toList else [c])

def Failure.text (f : Failure) : String :=
  let cause := match f.cause with
    | some cause => "\n\nCaused by:\n    " ++ indentedCause cause
    | none => ""
  "Error: " ++ f.message ++ cause ++ "\n"

def ReadError.reason : ReadError → String
  | .missing => "No such file or directory (os error 2)"
  | .notDirectory => "Not a directory (os error 20)"
  | .nameTooLong => "File name too long (os error 36)"
  | .denied => "Permission denied (os error 13)"
  | .directory => "Is a directory (os error 21)"
  | .other reason => reason

def loadLayout (h : Host) (path : String) : Except Failure Layout :=
  let name := Text.quoted path
  match h.read path with
  | .error .directory => .error ⟨s!"reading definition {name}", ReadError.directory.reason⟩
  | .error e => .error ⟨s!"opening definition {name}", e.reason⟩
  | .ok bytes =>
    match Layout.ProductDefinition.ofJson? bytes with
    | none => .error ⟨s!"reading definition {name}", "invalid product definition"⟩
    | some definition =>
      match definition.build with
      | .ok layout => .ok layout
      | .error (.defect e) => .error ⟨s!"invalid definition {name}", e.message⟩
      | .error (.unmeasurable id) =>
        .error ⟨s!"invalid definition {name}", s!"field {id} has no size"⟩

def logText (level : Option Log.Level) (lines : List Log.Line) : String :=
  match level with
  | none => ""
  | some level =>
    String.join ((lines.filter fun l => l.level.rank ≤ level.rank).map (·.text ++ "\n"))

def fileName (path : String) : String :=
  match ((path.splitOn "/").filter fun part => part != "" && part != ".").getLast? with
  | some ".." | none => ""
  | some name => name

def channelSetting (r : DecodeRequest) : Channelizer.Setting where
  config :=
    { solarTime := r.solarTime, marking := if r.realtime then .realtime else .recorded }
  correlation := .linear r.clockOrigin {}

def identity (r : DecodeRequest) : ProductIdentity where
  id := r.productId.getD (fileName r.input)
  spacecraft := r.spacecraft
  station := r.station
  virtualChannel := r.virtualChannel

def filled (r : DecodeRequest) (d : Decoded) : Channelizer :=
  d.candidates.foldl Channelizer.add (Channelizer.start {} (identity r))

def batches (r : DecodeRequest) (d : Decoded) : List Batch :=
  if r.channels then ((filled r d).finish (channelSetting r)).1.toList else []

def channelWarnings (r : DecodeRequest) (d : Decoded) : List Log.Line :=
  if r.channels then (filled r d).warnings (channelSetting r) .finish else []

def handlerWarning (h : Host) (handoff : Decode.Handoff) : List Log.Line :=
  let warn := fun e => [⟨.warning, "stream handler failed: " ++ e,
    [("handler", handoff.handler), ("field", handoff.field)]⟩]
  match h.handle handoff with
  | .succeeded => []
  | .exited status => warn s!"{handoff.handler} exited with {status}"
  | .failed e => warn e

def report (h : Host) (d : Decoded) (batches : List Batch) : Json :=
  Json.record [("consumed", Json.ofNat d.consumed), ("events", .array (d.events.map Event.json)),
    ("batches", .array (batches.map (Batch.json h.now)))]

def decode (h : Host) (r : DecodeRequest) : Except Failure Output := do
  let layout ← loadLayout h r.definition
  let data ← (h.read r.input).mapError fun e =>
    ⟨"reading " ++ Text.quoted r.input, some e.reason⟩
  let options : Decode.Options := ⟨some Calibration.polynomial, r.channels⟩
  let d ← (layout.decode options data).mapError fun e => ⟨e.message, none⟩
  let handled := if r.streamHandlers then d.handoffs.flatMap (handlerWarning h) else []
  let done : List Log.Line := match r.format with
    | .text => [⟨.info, "decoded product",
        [("consumed", Notice.number d.consumed), ("len", Notice.number data.length)]⟩]
    | .json => []
  let batches := batches r d
  let stdout := match r.format with
    | .text => Report.text d.events ++ String.join (batches.map Report.batchText)
    | .json => (report h d batches).text Json.pretty
  let log := d.notices.map Notice.line ++ done ++ channelWarnings r d ++ handled
  return ⟨0, stdout, logText h.logLevel log⟩

def describe (h : Host) (path : String) : Except Failure Output := do
  let layout ← loadLayout h path
  return ⟨0, layout.outline ++ s!"\n{layout.arena.size} fields\n", ""⟩

def Command.run (h : Host) (c : Command) : Output :=
  let result := match c with
    | .describe path => CommandLine.describe h path
    | .decode r => CommandLine.decode h r
  match result with
  | .ok output => output
  | .error f => ⟨1, "", f.text⟩

def usageStatus : Nat := 2

end Telemetry.CommandLine
