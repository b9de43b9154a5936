import DeletionGuard.Run
import DeletionGuard.Writing

/-!
# Sessions

A session performs operations one after the other on a store of files. It keeps a guard, the
settings last loaded and the verdict last reached.
-/

namespace DeletionGuard

/-- How and where something is rendered; what is left open is taken from the settings. -/
structure Rendering where
  addressStart : Option String
  format : Option Format
  color : Bool
  terminal : Bool
  room : Room

inductive Operation where
  | write (path : String) (bytes : List UInt8)
  | makeDirectory (path : String)
  | remove (path : String)
  | parse (text : String)
  | load (path : String)
  | isUnsafe (actions : List String)
  | violations (plan : Plan) (addressStart : String)
  | newGuard (addressStart : Option String)
  | judge (plan : Plan)
  | validate (path : String)
  | validateStatus (path addressStart : String)
  | render (verdict : Verdict) (how : Rendering)
  | renderLast (how : Rendering)
  | errorLine (message : String) (how : Rendering)
  | inputError (path : String) (text : Option String) (how : Rendering)
  | actionList (actions : List String)
  | format (word : String)
  | loadSettings (path : Option String)
  | override (addressStart : Option String) (format : Option String)
  /-- Reads the words of a command line, with the program's own path. -/
  | commandLine (args : List String)
  /-- Runs the program with these words on the files of the session. -/
  | run (words : List String) (environment : Environment) (outputFull diagnosticsFull : Bool)
  | session (steps : List Operation)

inductive Answer where
  | done
  | plan (p : Plan)
  | fault (f : Json.LocatedFault)
  | planError (e : PlanError)
  | unsafety (b : Bool)
  | changes (cs : List ResourceChange)
  | verdict (v : Verdict)
  | status (s : Status)
  | written (w : Written)
  | text (s : String)
  | format (f : Format)
  | unknownFormat (word : String)
  | settings (s : Settings)
  | loaded (s : Settings)
  | settingsError (e : SettingsError)
  | invocation (inv : Invocation)
  | refusal (r : Refusal) (message : String)
  | outcome (o : Outcome)
  | steps (as : List Answer)

structure Session where
  files : FileStore := .empty
  guard : Guard := {}
  settings : Settings := {}
  verdict : Verdict := .success

namespace Session

def report (s : Session) (how : Rendering) : Report where
  addressStart := how.addressStart.getD s.settings.addressStart
  format := how.format.getD s.settings.format
  color := how.color
  terminal := how.terminal

/-- The status that judging the plan at `path` ends with. -/
def statusOf (files : String → Lookup) (path addressStart : String) : Status :=
  match Plan.load files path with
  | .ok plan => ((Guard.mk addressStart).judge plan).status
  | .error _ => .inputError

mutual

def perform (s : Session) : Operation → Session × Answer
  | .write path bytes => ({ s with files := s.files.write path bytes }, .done)
  | .makeDirectory path => ({ s with files := s.files.makeDirectory path }, .done)
  | .remove path => ({ s with files := s.files.remove path }, .done)
  | .parse text =>
    match Plan.parse text with
    | .ok plan => (s, .plan plan)
    | .error fault => (s, .fault fault)
  | .load path =>
    match Plan.load s.files.lookup path with
    | .ok plan => (s, .plan plan)
    | .error e => (s, .planError e)
  | .isUnsafe actions => (s, .unsafety (Policy.isUnsafe (ActionSet.ofList actions)))
  | .violations plan start => (s, .changes (Policy.violations start plan))
  | .newGuard start => ({ s with guard := ⟨start.getD defaultAddressStart⟩ }, .done)
  | .judge plan =>
    let verdict := s.guard.judge plan
    ({ s with verdict }, .verdict verdict)
  | .validate path =>
    match Plan.load s.files.lookup path with
    | .ok plan =>
      let verdict := s.guard.judge plan
      ({ s with verdict }, .verdict verdict)
    | .error e => (s, .planError e)
  | .validateStatus path start => (s, .status (statusOf s.files.lookup path start))
  | .render verdict how => (s, .written (.ofWriting ((s.report how).write verdict) how.room))
  | .renderLast how => (s, .written (.ofWriting ((s.report how).write s.verdict) how.room))
  | .errorLine message how => (s, .written (.ofWriting (Report.writeErrorLine message) how.room))
  | .inputError path text how =>
    let error := match text with
      | none => PlanError.notFound path
      | some t =>
        match Plan.parse t with
        | .ok _ => .notFound path
        | .error fault => .malformed path (.document fault)
    (s, .written (.ofWriting (Report.writeInputError error) how.room))
  | .actionList actions => (s, .text (Report.actionList actions))
  | .format word =>
    match Format.ofWord? word with
    | some f => (s, .format f)
    | none => (s, .unknownFormat word)
  | .loadSettings path =>
    match Settings.load s.files.lookup path with
    | .ok settings => ({ s with settings }, .loaded settings)
    | .error e => (s, .settingsError e)
  | .override start word =>
    match word, word.bind Format.ofWord? with
    | some w, none => (s, .unknownFormat w)
    | _, format =>
      let settings := s.settings.override start format
      ({ s with settings, guard := ⟨settings.addressStart⟩ }, .settings settings)
  | .commandLine args =>
    match Invocation.ofCommandLine args with
    | .ok inv => (s, .invocation inv)
    | .error (r, message) => (s, .refusal r (ControlSequence.strip false message.render))
  | .run words environment outputFull diagnosticsFull =>
    (s, .outcome (.ofCommandLine (Usage.programName :: words)
      { files := s.files.lookup, environment, outputFull, diagnosticsFull }))
  | .session steps =>
    let (s', answers) := performAll s steps
    (s', .steps answers)

def performAll (s : Session) : List Operation → Session × List Answer
  | [] => (s, [])
  | op :: ops =>
    let (s₁, a) := perform s op
    let (s₂, as) := performAll s₁ ops
    (s₂, a :: as)

end

end Session

end DeletionGuard
