import DeletionGuard.Yaml.Token.Source

/-!
# Blocks and keys

A block is opened by an entry or a key that is indented more than the block around it, and closed
by what is indented less. That a key has begun shows only at the colon behind it, so the place
where one may have begun is kept until then; it is given up when the line ends or too much has been
read. In a block, what stands where only a key can stand must turn out to be one.
-/

namespace DeletionGuard.Yaml

/-- The number of bytes that a key and what stands before its colon may have. -/
def maxKeyLength : Nat := 1024

/-- Whether a colon comes too late for a key that begins here. -/
def KeyStart.isStale (k : KeyStart) (place : Mark) : Bool :=
  k.mark.line < place.line || k.mark.index + maxKeyLength < place.index

namespace Lexer

def enqueue (l : Lexer) (t : Token) : Lexer :=
  { l with queue := l.queue ++ [t] }

/-- Puts a token before the one with this number. -/
def insertBefore (l : Lexer) (number : Nat) (t : Token) : Lexer :=
  { l with queue := l.queue.insertIdx (number - l.taken) t }

/-- The places where a key may have begun, without the one in the innermost collection. -/
def outerKeyStarts (l : Lexer) : List KeyStart :=
  l.keyStarts.dropWhile (·.depth == l.flowDepth)

/-- Closes the blocks whose column is greater; flow collections hold no blocks. -/
def closeBlocks (l : Lexer) (column : Int) : Lexer :=
  if l.inFlow then l
  else
    let blocks := l.indent :: l.outerIndents
    let kept := blocks.dropWhile (column < ·)
    { l with
      queue := l.queue ++ (blocks.takeWhile (column < ·)).map fun _ => ⟨.blockEnd, l.mark, l.mark⟩
      indent := kept.headD (-1)
      outerIndents := kept.tail }

/-- Whether something at this column opens a block. -/
def opensBlock (l : Lexer) (column : Nat) : Bool :=
  !l.inFlow && l.indent < column

/-- Opens a block at this column, unless one is open there. -/
def openBlock (l : Lexer) (column : Nat) (number : Nat) (kind : TokenKind) (place : Mark) : Lexer :=
  if l.opensBlock column then
    { l.insertBefore number ⟨kind, place, place⟩ with
      indent := column
      outerIndents := l.indent :: l.outerIndents }
  else
    l

def nextNumber (l : Lexer) : Nat :=
  l.taken + l.queue.length

theorem rest_closeBlocks (l : Lexer) (column : Int) : (l.closeBlocks column).rest = l.rest := by
  unfold closeBlocks
  split <;> rfl

theorem rest_openBlock (l : Lexer) (column number : Nat) (kind : TokenKind) (place : Mark) :
    (l.openBlock column number kind place).rest = l.rest := by
  unfold openBlock
  split <;> rfl

end Lexer

namespace Scan

def enqueue (kind : TokenKind) (start stop : Mark) : Scan Unit :=
  update (·.enqueue ⟨kind, start, stop⟩) fun _ => rfl

def closeBlocks (column : Int) : Scan Unit :=
  update (·.closeBlocks column) fun l => l.rest_closeBlocks column

/-- Opens a block here, unless one is open at this column. -/
def openBlock (kind : TokenKind) : Scan Unit :=
  update (fun l => l.openBlock l.mark.column l.nextNumber kind l.mark)
    fun l => l.rest_openBlock _ _ _ _

def allowKey (b : Bool) : Scan Unit :=
  update (fun l => { l with keyAllowed := b }) fun _ => rfl

/-- Gives up the place where a key may have begun. -/
def dropKey : Scan Unit := do
  match (← Reader.here).keyStart? with
  | some ⟨true, _, _, place⟩ => failIn .missingColon .simpleKey place
  | _ => update (fun l => { l with keyStarts := l.outerKeyStarts }) fun _ => rfl

/-- Keeps this place as one where a key may have begun, if one may. -/
def keepKey : Scan Unit := do
  if (← Reader.here).keyAllowed then
    dropKey
    update (fun l => { l with
      keyStarts := ⟨!l.inFlow && l.indent == l.mark.column, l.flowDepth, l.nextNumber, l.mark⟩ ::
        l.keyStarts }) fun _ => rfl

/-- Gives up the places of keys whose colon comes too late. -/
def dropStaleKeys : Scan Unit := do
  let l ← Reader.here
  match l.keyStarts.find? fun k => k.isStale l.mark && k.required with
  | some k => failIn .missingColon .simpleKey k.mark
  | none =>
    update (fun l => { l with keyStarts := l.keyStarts.filter (!·.isStale l.mark) }) fun _ => rfl

def openFlow : Scan Unit :=
  update (fun l => { l with flowDepth := l.flowDepth + 1 }) fun _ => rfl

def closeFlow : Scan Unit :=
  update (fun l => { l with flowDepth := l.flowDepth - 1 }) fun _ => rfl

/-- Turns what began at `k` into a key. -/
def makeKey (k : KeyStart) : Scan Unit :=
  update (fun l =>
    let opened := (l.insertBefore k.number ⟨.key, k.mark, k.mark⟩).openBlock k.mark.column k.number
      .blockMappingStart k.mark
    { opened with keyStarts := l.outerKeyStarts }) fun _ => Lexer.rest_openBlock _ _ _ _ _

end Scan

end DeletionGuard.Yaml
