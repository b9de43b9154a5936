import DeletionGuard.Environment
import DeletionGuard.Invocation.Arguments
import DeletionGuard.Log.Filter
import DeletionGuard.Settings.Document
import DeletionGuard.Sink

/-!
# Runs

A run loads the settings, judges the plan and reports the verdict. What it says on the way are
notices: log entries, which a filter can hold back, and lines about errors, which are always
written. The verdict alone goes to the output; how a run ends does not depend on whether anything
that it writes is taken.
-/

namespace DeletionGuard

inductive Notice where
  | entry (e : LogEntry)
  | errorLine (pieces : List String)
  deriving DecidableEq, Repr

/-- What a run comes to: what it says, what it reports, and how it ends. -/
structure Course where
  notices : List Notice
  report : Option (List String)
  status : Status
  deriving DecidableEq, Repr

namespace Course

def programTarget : String := "pg"

def entry (level : Level) (target message : String) : Notice :=
  .entry ⟨level, target, message⟩

/-- One entry for each protected change, in plan order. -/
def policyEntries (start : String) (plan : Plan) : List Notice :=
  (plan.changes.filter (Policy.isProtected start)).map fun rc =>
    entry .debug "planguard::policy" (rc.address ++ " actions=" ++ Text.quoteList rc.actions ++
      " unsafe=" ++ toString (Policy.isUnsafe rc.actionSet))

def checkedEntry (start : String) (plan : Plan) (verdict : Verdict) : Notice :=
  entry .info "planguard::validator" ("Checked " ++ toString plan.changes.length ++
    " resource changes against prefix '" ++ start ++ "': " ++ toString verdict.changes.length ++
    " violations")

/-- The entry about the file that the settings come from. -/
def settingsEntry (path : String) : Notice :=
  entry .debug "planguard::config" ("Loaded config from " ++ path)

/-- What is said about a plan that has been loaded and judged. -/
def planEntries (path start : String) (plan : Plan) (verdict : Verdict) : List Notice :=
  entry .debug "planguard::plan" ("Loaded plan " ++ path ++ " with " ++
    toString plan.changes.length ++ " resource changes") ::
  policyEntries start plan ++ [checkedEntry start plan verdict]

/-- The course of a run with these settings, with or without colours that show or not. -/
def withSettings (files : String → Lookup) (path : String) (settings : Settings)
    (color shows : Bool) : Course :=
  let opening := [
    entry .debug programTarget ("planguard config: " ++ settings.describe),
    entry .info programTarget ("Validating " ++ path)]
  match Plan.load files path with
  | .ok plan =>
    let start := settings.addressStart
    let verdict := (Guard.mk start).judge plan
    let report : Report := ⟨start, settings.format, color, shows⟩
    { notices := opening ++ planEntries path start plan verdict
      report := some (report.pieces verdict)
      status := verdict.status }
  | .error e =>
    { notices := opening ++ [
        entry .debug programTarget ("Unusable plan input " ++ e.path ++ ": " ++ e.describe),
        .errorLine (Report.inputError e)]
      report := none
      status := .inputError }

/-- The course that an invocation takes, with output to a terminal or not, where the colours of a
report show or not. -/
def ofInvocation (files : String → Lookup) (inv : Invocation) (terminal shows : Bool) : Course :=
  match Settings.load files inv.settings with
  | .error e =>
    { notices := [.errorLine (Report.errorLine ("Failed to load configuration: " ++ e.message))]
      report := none
      status := .inputError }
  | .ok loaded =>
    let course := withSettings files inv.plan (loaded.override inv.addressStart inv.format)
      (!inv.noColor && terminal) shows
    { course with notices := (inv.settings.map settingsEntry).toList ++ course.notices }

end Course

/-- What a run finds around it. -/
structure Surroundings where
  files : String → Lookup
  environment : Environment := .empty
  /-- Whether the output and the diagnostics go to a terminal. -/
  terminal : Bool := false
  diagnosticsTerminal : Bool := false
  /-- Whether the output and the diagnostics are full, so that nothing is taken. -/
  outputFull : Bool := false
  diagnosticsFull : Bool := false
  /-- The times of the notices, by their number; without one the time of an entry is left out. -/
  clock : Nat → Option Timestamp := fun _ => none

/-- What is left of a run. -/
structure Outcome where
  exitCode : Nat
  output : String
  diagnostics : String
  deriving DecidableEq, Repr

namespace Outcome

/-- The exit code of a run that cannot even warn. -/
def brokenCode : Nat := 101

def refusedCode : Nat := 2

/-- What is written of a notice at a time. -/
def noticeText (filter : LogFilter) (colors : Bool) (time : Option Timestamp) : Notice → String
  | .entry e => if filter.shows e then e.line colors time else ""
  | .errorLine pieces => String.join pieces

/-- The entry about a report that could not be written. -/
def reportFailure : Notice :=
  Course.entry .warn Course.programTarget
    "Failed to write verdict report: No space left on device (os error 28)"

/-- The level up to which entries are shown unless something else is asked for. -/
def usualLevel (verbose : Bool) : Level :=
  if verbose then .debug else .warn

/-- The filter that is in force, and the warnings about its description. -/
def filterOf (inv : Invocation) (s : Surroundings) : LogFilter × List String :=
  LogFilter.ofDescription (usualLevel inv.verbose).rank ((s.environment "RUST_LOG").getD "")

def ofInvocation (inv : Invocation) (s : Surroundings) : Outcome :=
  let (filter, warnings) := filterOf inv s
  if s.diagnosticsFull && !warnings.isEmpty then
    ⟨brokenCode, "", ""⟩
  else
    let course :=
      Course.ofInvocation s.files inv s.terminal (s.environment.reportColors s.terminal)
    let written := course.report.map (writePieces (if s.outputFull then some 0 else none))
    let notices := course.notices ++ if written.any (·.failed) then [reportFailure] else []
    let colors := s.environment.logColors s.diagnosticsTerminal
    let diagnostics := String.join (warnings.map LogFilter.warningLine) ++
      String.join (notices.mapIdx fun i => noticeText filter colors (s.clock i))
    { exitCode := course.status.code
      output := (written.map Written.text).getD ""
      diagnostics := if s.diagnosticsFull then "" else diagnostics }

/-- What is written of a message: its features as well, or only what is shown. -/
def messageText (colors : Bool) (message : StyledText) : String :=
  if colors then message.render else ControlSequence.strip true message.render

/-- The outcome of a command line: the path of the program and the words behind it. -/
def ofCommandLine (args : List String) (s : Surroundings) : Outcome :=
  match Invocation.ofCommandLine args with
  | .ok inv => ofInvocation inv s
  | .error (refusal, message) =>
    if refusal.isFault then
      let text := messageText (s.environment.colors s.diagnosticsTerminal) message
      ⟨refusedCode, "", if s.diagnosticsFull then "" else text⟩
    else
      let text := messageText (s.environment.colors s.terminal) message
      ⟨0, if s.outputFull then "" else text, ""⟩

end Outcome

end DeletionGuard
