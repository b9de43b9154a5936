import DeletionGuard.Text.Styled

/-!
# Parameters

What can be said on the command line: the plan, options with a value, and flags. Options and flags
have a long name and mostly also a letter.
-/

namespace DeletionGuard

inductive Parameter where
  | plan
  | addressStart
  | settings
  | format
  | verbose
  | noColor
  | help
  | version
  deriving DecidableEq, Repr

namespace Parameter

/-- All options and flags, in the order of the help text. -/
def options : List Parameter :=
  [addressStart, settings, format, verbose, noColor, help, version]

def long? : Parameter → Option String
  | plan => none
  | addressStart => some "address-prefix"
  | settings => some "config"
  | format => some "format"
  | verbose => some "verbose"
  | noColor => some "no-color"
  | help => some "help"
  | version => some "version"

def letter? : Parameter → Option Char
  | plan => none
  | addressStart => some 'p'
  | settings => some 'c'
  | format => some 'f'
  | verbose => some 'v'
  | noColor => none
  | help => some 'h'
  | version => some 'V'

/-- The name of the value, if there is one. -/
def valueName? : Parameter → Option String
  | plan => some "PLAN"
  | addressStart => some "ADDRESS_PREFIX"
  | settings => some "CONFIG"
  | format => some "FORMAT"
  | verbose | noColor | help | version => none

def takesValue (p : Parameter) : Bool :=
  p.valueName?.isSome

/-- What a parameter does, in the words of the help text. -/
def purpose : Parameter → String
  | plan => "Path to the JSON plan (e.g. output of `terraform show -json plan.out`)"
  | addressStart =>
    "Address prefix marking protected resources (default: google_compute_disk.data_)"
  | settings => "Path to config file"
  | format => "Output format (text or json)"
  | verbose => "Enable verbose output"
  | noColor => "Never colorize output"
  | help => "Print help"
  | version => "Print version"

/-- How a parameter is written in messages. -/
def label (p : Parameter) : String :=
  let words := (p.long?.map ("--" ++ ·)).toList ++ (p.valueName?.map ("<" ++ · ++ ">")).toList
  " ".intercalate words

/-- A parameter as it is written where only what is typed as it stands is set off. -/
def styledLabel (p : Parameter) : StyledText :=
  match p.long?, p.valueName? with
  | some name, none => [⟨"--" ++ name, .bold⟩]
  | some name, some value => [⟨"--" ++ name, .bold⟩, ⟨" <" ++ value ++ ">", .plain⟩]
  | none, _ => .plain p.label

def ofLong? (name : String) : Option Parameter :=
  options.find? (·.long? == some name)

def ofLetter? (c : Char) : Option Parameter :=
  options.find? (·.letter? == some c)

end Parameter

end DeletionGuard
