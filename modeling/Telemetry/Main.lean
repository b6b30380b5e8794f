import Std.Time.DateTime.Timestamp
import Telemetry.CommandLine.Program

namespace Telemetry.CommandLine

def ReadError.ofIO : IO.Error → ReadError
  | .noFileOrDirectory .. => .missing
  | .permissionDenied .. => .denied
  | .inappropriateType (some _) .. => .notDirectory
  | .inappropriateType none .. => .directory
  | .invalidArgument (some _) .. => .nameTooLong
  | e => .other (toString e)

def readFile (path : String) : IO (Except ReadError (List UInt8)) := do
  match (← (IO.FS.readBinFile path).toBaseIO) with
  | .ok bytes => return .ok bytes.toList
  | .error e => return .error (.ofIO e)

def currentTime : IO Epoch := do
  let now ← Std.Time.Timestamp.now
  return Epoch.unix.add ⟨now.toNanosecondsSinceUnixEpoch.val⟩

def host (c : Command) : IO Host := do
  let files ← c.paths.mapM fun path => return (path, ← readFile path)
  return {
    read := fun path => (files.lookup path).getD (.error .missing)
    handle := fun _ => .failed "programs are not started"
    now := (← currentTime).text
    logLevel := Log.Level.ofSetting (← IO.getEnv "DECOM_LOG") }

end Telemetry.CommandLine

open Telemetry CommandLine in
def main (args : List String) : IO UInt32 := do
  match command? args with
  | none =>
    (← IO.getStderr).putStrLn "error: unusable arguments"
    return usageStatus.toUInt32
  | some c =>
    let output := c.run (← host c)
    (← IO.getStdout).putStr output.stdout
    (← IO.getStderr).putStr output.stderr
    return output.status.toUInt32
