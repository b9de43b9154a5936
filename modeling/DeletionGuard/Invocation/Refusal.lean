import DeletionGuard.Invocation.Parameter
import DeletionGuard.Report
import DeletionGuard.Text.Similarity

/-!
# Refusals

Why arguments give no invocation: because help or the version is asked for, or because something is
wrong with them. The message for wrong arguments ends with a line that shows the usage; once
parameters are concerned, it shows these.
-/

namespace DeletionGuard

open StyledText (plain)

/-- A proposal for a word that is not expected. -/
inductive Tip where
  /-- To mark the word as no option. -/
  | asValue
  | similar (p : Parameter)
  deriving DecidableEq, Repr

inductive UsageFault where
  | missingPlan (given : List Parameter)
  | missingValue (p : Parameter)
  | unknownFormat (word : String)
  | unexpectedWord (word : String) (tip : Option Tip) (concerned : List Parameter)
  | unexpectedValue (value : String) (p : Parameter) (given : List Parameter)
  | repeated (p : Parameter)
  deriving DecidableEq, Repr

inductive Refusal where
  | help
  | version
  | fault (f : UsageFault)
  deriving DecidableEq, Repr

namespace Usage

def programName : String := "pg"

def versionLine : String := "pg 0.1.0\n"

/-- Words with blanks between them. -/
def words : List StyledText → StyledText
  | [] => []
  | [w] => w
  | w :: ws => w ++ plain " " ++ words ws

/-- What the usage shows behind the name of the program. -/
inductive Form where
  /-- That there are options. -/
  | anyOptions
  /-- The options concerned. -/
  | options (ps : List Parameter)
  /-- The options concerned, and all parameters but these as a choice. -/
  | choice (ps : List Parameter)
  deriving DecidableEq, Repr

/-- The parameters that a run depends on. -/
def choices : List Parameter :=
  .plan :: Parameter.options.filter fun p => p ≠ .help ∧ p ≠ .version

/-- How a parameter is written in a choice. -/
def choiceLabel (p : Parameter) : String :=
  if p = .plan then "PLAN" else p.label

def Form.words : Form → List StyledText
  | anyOptions => [plain "[OPTIONS]", Parameter.plan.styledLabel]
  | options ps => ps.map Parameter.styledLabel ++ [Parameter.plan.styledLabel]
  | choice ps =>
    ps.map Parameter.styledLabel ++ [plain ("<" ++ "|".intercalate (choices.map choiceLabel) ++ ">")]

/-- The usage line of a program of this name. -/
def line (program : String) (form : Form) : StyledText :=
  ⟨"Usage:", .heading⟩ :: plain " " ++ words ([⟨program, .bold⟩] :: form.words)

/-- The letter and the name of an option, at the start of a line. -/
def optionHead (p : Parameter) : StyledText :=
  (match p.letter? with
    | some c => [⟨"  ", .plain⟩, ⟨"-" ++ c.toString, .bold⟩, ⟨", ", .plain⟩]
    | none => plain "      ") ++ p.styledLabel

def optionHelp (p : Parameter) : StyledText :=
  optionHead p ++ plain ("\n          " ++ p.purpose ++ "\n")

def help (program : String) : StyledText :=
  plain "Fail infrastructure plans that delete or replace protected data disks\n\n" ++
    line program .anyOptions ++ plain "\n\n" ++
    ⟨"Arguments:", .heading⟩ :: plain ("\n  " ++ Parameter.plan.label ++ "  " ++
    Parameter.plan.purpose ++ "\n\n") ++
    ⟨"Options:", .heading⟩ :: plain "\n" ++
    Parameter.options.flatMap optionHelp ++
    plain "\nExit codes: 0 = no violations, 1 = violations found, 2 = plan missing or unparseable\n"

end Usage

namespace UsageFault

def problem : UsageFault → StyledText
  | missingPlan _ =>
    [⟨"the following required arguments were not provided:\n  ", .plain⟩,
      ⟨Parameter.plan.label, .green⟩]
  | missingValue p =>
    [⟨"a value is required for '", .plain⟩, ⟨p.label, .yellow⟩,
      ⟨"' but none was supplied", .plain⟩]
  | unknownFormat word =>
    [⟨"invalid value '", .plain⟩, ⟨word, .yellow⟩, ⟨"' for '", .plain⟩,
      ⟨Parameter.format.label, .bold⟩, ⟨"': " ++ Format.unknown word, .plain⟩]
  | unexpectedWord word _ _ =>
    [⟨"unexpected argument '", .plain⟩, ⟨word, .yellow⟩, ⟨"' found", .plain⟩]
  | unexpectedValue value p _ =>
    [⟨"unexpected value '", .plain⟩, ⟨value, .yellow⟩, ⟨"' for '", .plain⟩, ⟨p.label, .bold⟩,
      ⟨"' found; no more were expected", .plain⟩]
  | repeated p =>
    [⟨"the argument '", .plain⟩, ⟨p.label, .yellow⟩, ⟨"' cannot be used multiple times", .plain⟩]

def tip : UsageFault → Option StyledText
  | unexpectedWord word (some .asValue) _ =>
    some [⟨"to pass '", .plain⟩, ⟨word, .yellow⟩, ⟨"' as a value, use '", .plain⟩,
      ⟨"-- " ++ word, .green⟩, ⟨"'", .plain⟩]
  | unexpectedWord _ (some (.similar p)) _ =>
    p.long?.map fun name =>
      [⟨"a similar argument exists: '", .plain⟩, ⟨"--" ++ name, .green⟩, ⟨"'", .plain⟩]
  | _ => none

/-- The usage with these parameters, or with all options if there are none. -/
def usageWith (ps : List Parameter) : Usage.Form :=
  if ps.isEmpty then .anyOptions else .options (ps.filter (· ≠ .plan)).eraseDups

/-- The usage that is shown, if one is. -/
def usage : UsageFault → Option Usage.Form
  | missingPlan given => some (usageWith (given ++ [.plan]))
  | unexpectedWord _ _ ps => some (usageWith ps)
  | unexpectedValue _ p [] => some (.options [p])
  | unexpectedValue _ p (_ :: _) => some (.choice ([p].filter (· ∉ Usage.choices)))
  | repeated _ => some .anyOptions
  | missingValue _ | unknownFormat _ => none

def message (f : UsageFault) (program : String) : StyledText :=
  ⟨"error:", .boldRed⟩ :: plain " " ++ f.problem ++ plain "\n\n" ++
    (f.tip.map fun t =>
      [⟨"  ", .plain⟩, ⟨"tip:", .green⟩, ⟨" ", .plain⟩] ++ t ++ plain "\n\n").getD [] ++
    (f.usage.map fun u => Usage.line program u ++ plain "\n\n").getD [] ++
    [⟨"For more information, try '", .plain⟩, ⟨"--help", .bold⟩, ⟨"'.\n", .plain⟩]

end UsageFault

namespace Refusal

def message (r : Refusal) (program : String) : StyledText :=
  match r with
  | help => Usage.help program
  | version => plain Usage.versionLine
  | fault f => f.message program

/-- Whether something is wrong with the arguments. -/
def isFault : Refusal → Bool
  | help | version => false
  | fault _ => true

end Refusal

end DeletionGuard
