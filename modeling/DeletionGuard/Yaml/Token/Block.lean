import DeletionGuard.Yaml.Token.Source

/-!
# Block scalars

A block scalar begins below its header and holds the lines that are indented as far as the first
one, or as far as the header says. A literal one keeps its line ends; a folded one joins lines that
do not begin with a blank. The header also says what becomes of the line ends after the last line.
-/

namespace DeletionGuard.Yaml

/-- What becomes of the line ends after the last line: all go, one stays, or all stay. -/
inductive Chomping where
  | strip
  | clip
  | keep
  deriving DecidableEq, Repr

def Chomping.ofChar? : Char → Option Chomping
  | '-' => some strip
  | '+' => some keep
  | _ => none

structure BlockHeader where
  chomping : Chomping
  /-- How far the lines are indented beyond the block around the scalar, if the header says so. -/
  indentation : Option Nat
  deriving DecidableEq, Repr

/-- What comes before a line: line ends, the widest indentation, and where the line ends stop. -/
structure LineGap where
  /-- The text of the line ends, reversed. -/
  reversed : List Char
  widest : Nat
  stop : Mark
  deriving DecidableEq, Repr

def LineGap.breaks (gap : LineGap) : List Char :=
  gap.reversed.reverse

/-- A block scalar up to the beginning of a line. -/
structure BlockState where
  /-- The text, reversed, without the end of the last line. -/
  text : List Char
  /-- The end of the last line, and the line ends after it. -/
  lineEnd : List Char
  breaks : List Char
  /-- Whether the last line began with a blank. -/
  blankLine : Bool
  stop : Mark
  deriving DecidableEq, Repr

namespace BlockState

/-- What stands between the last line and the next one, which begins with a blank or not. -/
def between (s : BlockState) (folded blank : Bool) : List Char :=
  if folded && s.lineEnd == ['\n'] && !s.blankLine && !blank then
    if s.breaks.isEmpty then [' '] else s.breaks
  else
    s.lineEnd ++ s.breaks

/-- The text with what is left of the line ends after the last line. -/
def chomp (s : BlockState) : Chomping → List Char
  | .strip => s.text.reverse
  | .clip => s.text.reverse ++ s.lineEnd
  | .keep => s.text.reverse ++ s.lineEnd ++ s.breaks

end BlockState

namespace Scan

/-- A mark of chomping, if one comes next. -/
def chomping? : Scan (Option Chomping) := do
  match (← peek).bind Chomping.ofChar? with
  | none => return none
  | some c =>
    skip 1
    return some c

/-- A digit of indentation, if one comes next. -/
def indentation? (begin : Mark) : Scan (Option Nat) := do
  match ← peek with
  | none => return none
  | some c =>
    if c = '0' then
      failIn .zeroIndentation .blockScalar begin
    else if c.isDigit then
      skip 1
      return some (c.toNat - '0'.toNat)
    else
      return none

/-- The header of a block scalar, up to the end of its line. -/
def blockHeader (begin : Mark) : Scan BlockHeader := do
  let first ← chomping?
  let indentation ← indentation? begin
  let second ← if first.isNone && indentation.isSome then chomping? else pure none
  restOfLine .blockScalar begin
  return ⟨(first.or second).getD .clip, indentation⟩

/-- Passes spaces, at most up to the column `indent`. -/
def indentTo (indent : Option Nat) : Scan Unit := do
  let l ← Reader.here
  let spaces := (l.rest.takeWhile (· == ' ')).length
  skip (match indent with
    | none => spaces
    | some n => min spaces (n - l.mark.column))
  let _ ← peek

/-- The indentation of a line, and its end if there is nothing else on it. -/
def gapTurn (indent : Option Nat) (begin : Mark) (gap : LineGap) :
    Scan (Reader.Turn LineGap LineGap) := do
  indentTo indent
  let place ← mark
  let gap := { gap with widest := max gap.widest place.column }
  if (← peek) = some '\t' && indent.all (place.column < ·) then
    failIn .tabInIndentation .blockScalar begin
  else
    let text ← lineEnd
    let stop ← mark
    if text = [] then
      return .done gap
    else
      return .again { gap with reversed := text.reverse ++ gap.reversed, stop }

end Scan

theorem passes_gapTurn (indent : Option Nat) (begin : Mark) (gap : LineGap) :
    Reader.PassesIf Reader.Turn.IsAgain (Scan.gapTurn indent begin gap) := by
  refine .after _ fun _ => .after _ fun place => .after _ fun _ => ?_
  dsimp only
  split
  · exact .failWith _
  refine passes_lineEnd.bindIf fun text h => .after _ fun stop => ?_
  simp only [ne_eq, Decidable.not_not] at h
  rw [if_pos h]
  exact .pure id

/-- Reading the lines that hold nothing but indentation. -/
def gapStep (indent : Option Nat) (begin : Mark) : Reader.Step Lexer Fault LineGap LineGap where
  turn := Scan.gapTurn indent begin
  passes := passes_gapTurn indent begin

namespace Scan

/-- What comes before the next line. -/
def lineGap (indent : Option Nat) (begin : Mark) : Scan LineGap := do
  Reader.iterate (gapStep indent begin) ⟨[], 0, ← mark⟩

/-- One line of a block scalar, and what comes before the next one. -/
def blockTurn (folded : Bool) (indent : Nat) (begin : Mark) (s : BlockState) :
    Scan (Reader.Turn BlockState BlockState) := do
  if (← mark).column ≠ indent then
    return .done s
  else
    match ← next? with
    | none => return .done s
    | some c =>
      let line ← takeWhile (!isBreak ·)
      let ending ← lineEnd
      let gap ← lineGap (some indent) begin
      return .again {
        text := (c :: line).reverse ++ ((s.between folded (isBlank c)).reverse ++ s.text)
        lineEnd := ending
        breaks := gap.breaks
        blankLine := isBlank c
        stop := gap.stop }

end Scan

theorem passes_blockTurn (folded : Bool) (indent : Nat) (begin : Mark) (s : BlockState) :
    Reader.PassesIf Reader.Turn.IsAgain (Scan.blockTurn folded indent begin s) := by
  refine .after _ fun place => ?_
  split
  · exact .pure id
  refine passes_next?.bindIf fun c? h => ?_
  cases c? with
  | none => exact .pure id
  | some c => exact absurd rfl h

def blockStep (folded : Bool) (indent : Nat) (begin : Mark) :
    Reader.Step Lexer Fault BlockState BlockState where
  turn := Scan.blockTurn folded indent begin
  passes := passes_blockTurn folded indent begin

/-- The block scalar whose mark stood at `begin`, and where it stops. -/
def Scan.block (folded : Bool) (begin : Mark) : Scan (List Char × Mark) := do
  let header ← blockHeader begin
  let outer := (← Reader.here).indent
  let given := header.indentation.map (outer.toNat + ·)
  let gap ← lineGap given begin
  let indent := given.getD (max gap.widest (max (outer + 1).toNat 1))
  let s ← Reader.iterate (blockStep folded indent begin) ⟨[], [], gap.breaks, false, gap.stop⟩
  return (s.chomp header.chomping, s.stop)

end DeletionGuard.Yaml
