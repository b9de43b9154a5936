import DeletionGuard.Invocation.Refusal

/-!
# Arguments

`Invocation.ofWords` reads what the words of a command line ask for. A value can be attached to its
option or be the next word. A word that stands for itself is looked at only when something comes
after it that counts as well, or at the end: that something is wrong with a later word can be told
first.
-/

namespace DeletionGuard

/-- What a run is asked for. -/
structure Invocation where
  plan : String
  addressStart : Option String := none
  settings : Option String := none
  format : Option Format := none
  verbose : Bool := false
  noColor : Bool := false
  deriving DecidableEq, Repr

namespace Invocation

/-- A parameter that has been named and whose value, if it is there, has not been looked at. -/
structure Pending where
  parameter : Parameter
  value : Option String
  deriving DecidableEq, Repr

/-- What has been read of the words so far. -/
structure Draft where
  /-- The parameters that have been accepted, in their order. -/
  given : List Parameter := []
  pending : Option Pending := none
  planSeen : Bool := false
  plan : Option String := none
  addressStart : Option String := none
  settings : Option String := none
  format : Option Format := none
  verbose : Bool := false
  noColor : Bool := false
  deriving DecidableEq, Repr

namespace Draft

/-- Takes over the value of a parameter; paths cannot be empty. -/
def store (d : Draft) (p : Parameter) (value : String) : Except Refusal Draft :=
  match p with
  | .plan =>
    if value.isEmpty then .error (.fault (.missingValue p)) else .ok { d with plan := some value }
  | .addressStart => .ok { d with addressStart := some value }
  | .settings =>
    if value.isEmpty then .error (.fault (.missingValue p))
    else .ok { d with settings := some value }
  | .format =>
    match Format.ofWord? value with
    | some f => .ok { d with format := some f }
    | none => .error (.fault (.unknownFormat value))
  | .verbose => .ok { d with verbose := true }
  | .noColor => .ok { d with noColor := true }
  | .help => .error .help
  | .version => .error .version

/-- The parameters that count as given once `p` has come again or for the first time. -/
def givenWith (d : Draft) (p : Parameter) : List Parameter :=
  if p ∈ d.given then d.given.erase p else d.given ++ [p]

/-- Accepts a parameter, which can come only once. -/
def accept (d : Draft) (p : Parameter) (value : String) : Except Refusal Draft :=
  if p ∈ d.given then .error (.fault (.repeated p))
  else { d with given := d.givenWith p }.store p value

/-- Looks at what is pending. -/
def settle (d : Draft) : Except Refusal Draft :=
  match d.pending with
  | none => .ok d
  | some ⟨p, none⟩ => .error (.fault (.missingValue p))
  | some ⟨p, some value⟩ => { d with pending := none }.accept p value

/-- The parameters that count as given once what is pending has been looked at, good or bad. -/
def givenSoFar (d : Draft) : List Parameter :=
  match d.pending with
  | some ⟨p, some _⟩ => d.givenWith p
  | _ => d.given

/-- A parameter with a value that is attached, or a flag. -/
def take (d : Draft) (p : Parameter) (value : String) : Except Refusal Draft := do
  (← d.settle).accept p value

/-- An option whose value is still to come. -/
def await (d : Draft) (p : Parameter) : Except Refusal Draft := do
  return { ← d.settle with pending := some ⟨p, none⟩ }

/-- A flag. Help and version are no parameters that are given, but asked for. -/
def flag (d : Draft) (p : Parameter) : Except Refusal Draft := do
  let d ← d.settle
  match p with
  | .help => .error .help
  | .version => .error .version
  | _ => d.accept p ""

/-- The parameters that an unknown long option concerns, and the tip about it. -/
def unknownLong (d : Draft) (name : String) : UsageFault :=
  let similar :=
    (Text.mostSimilar? name (Parameter.options.filterMap Parameter.long?)).bind Parameter.ofLong?
  match similar with
  | some p =>
    .unexpectedWord ("--" ++ name) (some (.similar p)) (d.givenSoFar ++ [p])
  | none => .unexpectedWord ("--" ++ name) (some .asValue) d.givenSoFar

/-- A word that starts with two dashes. -/
def long (d : Draft) (name : String) (value : Option String) : Except Refusal Draft :=
  match Parameter.ofLong? name, value with
  | none, _ => .error (.fault (d.unknownLong name))
  | some p, none => if p.takesValue then d.await p else d.flag p
  | some p, some v =>
    if p.takesValue then d.take p v else .error (.fault (.unexpectedValue v p d.given))

/-- The letters behind one dash; the first one that takes a value takes the rest of the word. -/
def letters (d : Draft) : List Char → Except Refusal Draft
  | [] => .ok d
  | c :: cs =>
    match Parameter.ofLetter? c with
    | none => .error (.fault (.unexpectedWord ("-" ++ c.toString) (some .asValue) []))
    | some p =>
      if p.takesValue then
        match cs with
        | [] => d.await p
        | '=' :: value => d.take p (String.ofList value)
        | value => d.take p (String.ofList value)
      else do
        (← d.flag p).letters cs

/-- A word that stands for itself where no value is awaited. -/
def bare (d : Draft) (word : String) : Except Refusal Draft :=
  if d.planSeen then .error (.fault (.unexpectedWord word none []))
  else do
    return { ← d.settle with pending := some ⟨.plan, some word⟩, planSeen := true }

/-- A word before any mark that only plain words follow. -/
def word (d : Draft) (w : String) : Except Refusal Draft :=
  match w.toList with
  | '-' :: '-' :: cs =>
    let value := (cs.dropWhile (· ≠ '=')).drop 1
    d.long (String.ofList (cs.takeWhile (· ≠ '=')))
      (if '=' ∈ cs then some (String.ofList value) else none)
  | '-' :: c :: cs => d.letters (c :: cs)
  | _ =>
    match d.pending with
    | some ⟨p, none⟩ => .ok { d with pending := some ⟨p, some w⟩ }
    | _ => d.bare w

/-- Reads words; two dashes alone mark that only plain words follow. -/
def words (d : Draft) : List String → Except Refusal Draft
  | [] => .ok d
  | w :: ws =>
    if w = "--" then ws.foldlM bare d
    else do (← d.word w).words ws

/-- What the words ask for; a plan must be among them. -/
def finish (d : Draft) : Except Refusal Invocation := do
  let d ← d.settle
  match d.plan with
  | none => .error (.fault (.missingPlan d.given))
  | some plan => return {
      plan
      addressStart := d.addressStart
      settings := d.settings
      format := d.format
      verbose := d.verbose
      noColor := d.noColor }

end Draft

/-- What the words behind the program's name ask for. -/
def ofWords (ws : List String) : Except Refusal Invocation := do
  (← ({} : Draft).words ws).finish

/-- The name of a program that was called by this path. -/
def programOf (path : String) : String :=
  match ((path.splitOn "/").filter fun name => name ≠ "" ∧ name ≠ ".").getLast? with
  | none | some ".." => Usage.programName
  | some name => name

/-- What a command line asks for, or the message that refuses it. -/
def ofCommandLine (args : List String) : Except (Refusal × StyledText) Invocation :=
  let program := (args.head?.map programOf).getD Usage.programName
  (ofWords args.tail).mapError fun r => (r, r.message program)

end Invocation

end DeletionGuard
