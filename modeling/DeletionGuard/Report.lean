import DeletionGuard.Json.Writer
import DeletionGuard.Plan.Document
import DeletionGuard.Verdict

/-!
# Reports

A verdict is reported as text or as JSON. Text reports are read line by line by other tools, so
the shape of their lines is fixed: the first one starts with a tag, and each change that violates
the policy has a line of its own. Reports are lists of pieces, in the order in which they are
written.
-/

namespace DeletionGuard

inductive Format where
  | text
  | json
  deriving DecidableEq, Repr

namespace Format

def name : Format → String
  | text => "text"
  | json => "json"

/-- The format that a word names in any ASCII case. -/
def ofWord? (word : String) : Option Format :=
  let w := word.toList.map Char.toLower
  if w = "text".toList ∨ w = "plain".toList then some text
  else if w = "json".toList then some json
  else none

/-- What is said of a word that names no format. -/
def unknown (word : String) : String :=
  "Unknown format: " ++ word ++ ". Use: text or json"

end Format

/-- How verdicts are reported. -/
structure Report where
  addressStart : String
  format : Format
  /-- Whether colour is wanted. -/
  color : Bool := false
  /-- Whether colour shows where the report goes. -/
  terminal : Bool := false
  deriving DecidableEq, Repr

namespace Report

/-- Actions between brackets, each one in single quotes. -/
def actionList (actions : List String) : String :=
  "[" ++ ", ".intercalate (actions.map fun a => "'" ++ a ++ "'") ++ "]"

/-- A tag in bold, and in the given colour, if colour is wanted and shows. -/
def tag (r : Report) (colorCode : String) (word : String) : String :=
  if r.color && r.terminal then "\x1b[1;" ++ colorCode ++ "m" ++ word ++ "\x1b[0m" else word

def successLine (r : Report) : List String :=
  [r.tag "32" "OK:", " no protected resources (prefix '", r.addressStart,
    "') are deleted or replaced.", "\n"]

def violationsHead (r : Report) : List String :=
  [r.tag "31" "ERROR:", " protected resources scheduled for deletion or replacement:", "\n"]

def changeLine (rc : ResourceChange) : List String :=
  ["  - ", rc.address, ": actions=", actionList rc.actions, "\n"]

def hintLine (r : Report) : List String :=
  ["Hint: remove the delete/replace of these resources from the plan, ",
    "or rename them outside the '", r.addressStart, "' convention if data loss is intended.", "\n"]

def textPieces (r : Report) : Verdict → List String
  | .success => r.successLine
  | .violations changes => r.violationsHead ++ changes.flatMap changeLine ++ r.hintLine

def changeTree (rc : ResourceChange) : Json.Tree :=
  .object [("address", .text rc.address), ("actions", .list (rc.actions.map .text))]

def tree (r : Report) (v : Verdict) : Json.Tree :=
  .object [
    ("status", .text (match v with | .success => "ok" | .violations _ => "violations")),
    ("prefix", .text r.addressStart),
    ("violations", .list (v.changes.map changeTree))]

/-- The pieces that make up the report of a verdict. -/
def pieces (r : Report) (v : Verdict) : List String :=
  match r.format with
  | .text => r.textPieces v
  | .json => (r.tree v).pieces ++ ["\n"]

/-- The line for input that cannot be judged; it is never coloured. -/
def errorLine (message : String) : List String :=
  ["ERROR: ", message, "\n"]

def inputError (e : PlanError) : List String :=
  errorLine e.message

end Report

end DeletionGuard
