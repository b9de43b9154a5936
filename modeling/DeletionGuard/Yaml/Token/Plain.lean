import DeletionGuard.Yaml.Token.Folding

/-!
# Plain scalars

A plain scalar has no marks around it. It ends at a colon that a blank follows, at a comment, at a
line that is not indented enough, and in a flow collection at the marks of the collection.
-/

namespace DeletionGuard.Yaml

/-- Marks of flow collections. -/
def isFlowMark (c : Char) : Bool :=
  c == ',' || c == '[' || c == ']' || c == '{' || c == '}'

/-- A plain scalar so far: its text, reversed, where it stops, and the blanks after that. -/
structure PlainState where
  text : List Char
  stop : Mark
  folding : Folding
  deriving DecidableEq, Repr

namespace PlainState

/-- Appends a character that ends at `stop` behind the blanks. -/
def push (s : PlainState) (c : Char) (stop : Mark) : PlainState :=
  ⟨c :: (s.folding.text.reverse ++ s.text), stop, .none⟩

end PlainState

namespace Scan

/-- Whether blanks before `c` end the scalar. -/
def blanksEndPlain (s : PlainState) (c : Char) (indent : Int) : Scan Bool := do
  if s.folding.isNone then
    return false
  else
    let l ← Reader.here
    if !l.inFlow && (l.mark.column : Int) < indent then
      return true
    else
      return (← atDocumentMark) || c = '#'

/-- Whether the scalar ends before `c`, which is neither blank nor a line end. -/
def plainEnds (s : PlainState) (c : Char) (indent : Int) (begin : Mark) : Scan Bool := do
  if ← blanksEndPlain s c indent then
    return true
  else
    let inFlow := (← Reader.here).inFlow
    let after ← peekAt 1
    if inFlow && c == ':' && after.any (fun d => isFlowMark d || d == '?') then
      failIn .unexpectedColon .plainScalar begin
    else
      return (c == ':' && endOr isSpace after) || (inFlow && isFlowMark c)

/-- One character or line end of a plain scalar. -/
def plainTurn (indent : Int) (begin : Mark) (s : PlainState) :
    Scan (Reader.Turn PlainState PlainState) := do
  let c? ← peek
  let place ← mark
  match c? with
  | none => return .done s
  | some c =>
    if isBreak c then
      passLineEnd (fun text => { s with folding := s.folding.addBreak text }) s
    else if isBlank c then
      if s.folding.broken && c == '\t' && (place.column : Int) < indent then
        failIn .tabBeforePlain .plainScalar begin
      else
        passOn { s with folding := s.folding.addBlank c } s
    else if ← plainEnds s c indent begin then
      return .done s
    else
      passOn (s.push c (place.forward [c])) s

end Scan

theorem passes_plainTurn (indent : Int) (begin : Mark) (s : PlainState) :
    Reader.PassesIf Reader.Turn.IsAgain (Scan.plainTurn indent begin s) := by
  refine .after _ fun c? => .after _ fun place => ?_
  split
  · exact .pure id
  split
  · exact passes_passLineEnd _ _
  split
  · split
    · exact .failWith _
    · exact passes_passOn _ _
  refine .after _ fun b => ?_
  split
  · exact .pure id
  · exact passes_passOn _ _

def plainStep (indent : Int) (begin : Mark) : Reader.Step Lexer Fault PlainState PlainState where
  turn := Scan.plainTurn indent begin
  passes := passes_plainTurn indent begin

/--
The plain scalar that starts with `c` at `begin`, and where it stops. If it ends with a line, a key
may begin behind it.
-/
def Scan.plain (c : Char) (begin : Mark) : Scan (List Char × Mark) := do
  let indent := (← Reader.here).indent + 1
  let s ← Reader.iterate (plainStep indent begin) ⟨[c], ← mark, .none⟩
  if s.folding.broken then
    update (fun l => { l with keyAllowed := true }) fun _ => rfl
  return (s.text.reverse, s.stop)

end DeletionGuard.Yaml
