import Mathlib.Tactic.DeprecateTo
import DeletionGuard.Run

/-!
# The command line

Looks up the files that a command line names, and writes what its run leaves. What is written and
how the run ends is decided by `Outcome.ofCommandLine`.
-/

namespace DeletionGuard.CommandLine

/-- Why a path cannot be looked up or read. -/
def pathFault : IO.Error → PathFault
  | .noFileOrDirectory .. => .notFound
  | .inappropriateType .. => .notDirectory
  | .invalidArgument .. => .nameTooLong
  | .permissionDenied .. => .permissionDenied
  | _ => .inputOutput

/-- What stands at a path. A device is not read unless `readsDevices`. -/
def find (readsDevices : Bool) (path : String) : IO Lookup := do
  if path.contains (Char.ofNat 0) then
    return .missing .nulInPath
  else if path.isEmpty then
    return .missing .notFound
  else
    let place := (← IO.currentDir) / path
    match ← place.metadata.toBaseIO with
    | .error e => return .missing (pathFault e)
    | .ok data =>
      match data.type with
      | .dir => return .directory
      | .file =>
        match ← (IO.FS.readBinFile place).toBaseIO with
        | .ok bytes => return .regular bytes.toList
        | .error e => return .unreadable (pathFault e)
      | _ =>
        if readsDevices then
          match ← (IO.FS.readBinFile place).toBaseIO with
          | .ok bytes => return .device bytes.toList
          | .error e => return .missing (pathFault e)
        else
          return .device []

/-- What stands at the paths that an invocation names. Settings may come from a device, plans not. -/
def findNamed (inv : Invocation) : IO (String → Lookup) := do
  let settings := inv.settings.toList
  let found ← (inv.plan :: settings).mapM fun path => do
    return (path, ← find (settings.contains path) path)
  return fun path => (found.lookup path).getD (.missing .notFound)

/-- Writes a text, and tells whether all of it was taken. -/
def write (stream : IO.FS.Stream) (text : String) : IO Bool := do
  try
    stream.putStr text
    stream.flush
    return true
  catch _ =>
    return false

/-- The names of the variables that a run depends on. -/
def variableNames : List String :=
  ["RUST_LOG", "RUST_LOG_STYLE", "NO_COLOR", "CLICOLOR_FORCE", "CLICOLOR", "TERM", "CI"]

/-- The environment, as far as a run depends on it. -/
def environment : IO Environment := do
  let found ← variableNames.mapM fun name => do return (name, ← IO.getEnv name)
  return fun name => (found.lookup name).join

/-- The time now; no clock is taken to be set to one before 1970. -/
def now : IO Timestamp := do
  return ⟨(← Std.Time.Timestamp.now).toSecondsSinceUnixEpoch.val.toNat⟩

/-- Runs the program that was called by this path with these words. -/
def run (program : String) (words : List String) : IO UInt32 := do
  let args := program :: words
  let output ← IO.getStdout
  let diagnostics ← IO.getStderr
  let files ← match Invocation.ofCommandLine args with
    | .ok inv => findNamed inv
    | .error _ => pure fun _ => .missing .notFound
  let time ← now
  let s : Surroundings := {
    files
    clock := fun _ => some time
    environment := ← environment
    terminal := ← output.isTty
    diagnosticsTerminal := ← diagnostics.isTty }
  let s := { s with outputFull := !(← write output (Outcome.ofCommandLine args s).output) }
  let s := { s with
    diagnosticsFull := !(← write diagnostics (Outcome.ofCommandLine args s).diagnostics) }
  return (Outcome.ofCommandLine args s).exitCode.toUInt32

end DeletionGuard.CommandLine

def main (words : List String) : IO UInt32 := do
  DeletionGuard.CommandLine.run (← IO.appPath).toString words
