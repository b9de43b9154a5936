/-!
# The environment

Variables that are set around a run. Some of them say whether what is written to a stream has
colours.
-/

namespace DeletionGuard

/-- The values of the variables that are set. -/
abbrev Environment := String → Option String

namespace Environment

def empty : Environment := fun _ => none

/-- Whether a stream has colours: not if they are unwanted, always if they are forced, and else on
terminals that can show them. -/
def colors (env : Environment) (terminal : Bool) : Bool :=
  if (env "NO_COLOR").any (· ≠ "") then false
  else if (env "CLICOLOR_FORCE").any (· ≠ "0") then true
  else if env "CLICOLOR" = some "0" then false
  else terminal &&
    ((env "TERM").any (· ≠ "dumb") || (env "CLICOLOR").isSome || (env "CI").isSome)

/-- Whether the colours of a report show: always if they are forced, not if they are unwanted, and
else on terminals. -/
def reportColors (env : Environment) (terminal : Bool) : Bool :=
  if (env "CLICOLOR_FORCE").any (· ≠ "0") then true
  else if (env "NO_COLOR").isSome then false
  else terminal && env "CLICOLOR" ≠ some "0"

/-- Whether log entries have colours; this can be asked for apart. -/
def logColors (env : Environment) (terminal : Bool) : Bool :=
  if env "RUST_LOG_STYLE" = some "always" then true
  else if env "RUST_LOG_STYLE" = some "never" then false
  else env.colors terminal

end Environment

end DeletionGuard
