import DeletionGuard.Yaml.Token.Block
import DeletionGuard.Yaml.Token.Directive
import DeletionGuard.Yaml.Token.Layout
import DeletionGuard.Yaml.Token.Plain
import DeletionGuard.Yaml.Token.Quoted

/-!
# The tokens of a stream

What comes next is told by its first characters. A token is handed out once no key can begin with
it any more. `tokens` gives the tokens of a text that can be handed out, and the fault that ends
them, if one does.
-/

namespace DeletionGuard.Yaml

/-- What comes next. -/
inductive Lead where
  | endOfText
  | directive
  | documentMark (kind : TokenKind)
  | flowStart (kind : TokenKind)
  | flowEnd (kind : TokenKind)
  | flowEntry
  | blockEntry
  | key
  | value
  | alias
  | anchor
  | tag
  | block (folded : Bool)
  | quoted (style : QuoteStyle)
  | plain
  | unknown
  deriving DecidableEq, Repr

/-- What begins with `c` and is no mark of a document. -/
def Lead.ofChar (inFlow spaceAfter : Bool) (c : Char) : Lead :=
  match c with
  | '[' => flowStart .flowSequenceStart
  | '{' => flowStart .flowMappingStart
  | ']' => flowEnd .flowSequenceEnd
  | '}' => flowEnd .flowMappingEnd
  | ',' => flowEntry
  | '-' => if spaceAfter then blockEntry else plain
  | '?' => if inFlow || spaceAfter then key else plain
  | ':' => if inFlow || spaceAfter then value else plain
  | '*' => .alias
  | '&' => anchor
  | '!' => tag
  | '|' => if inFlow then unknown else block false
  | '>' => if inFlow then unknown else block true
  | '\'' => quoted .single
  | '"' => quoted .double
  | '#' => unknown
  | '%' => unknown
  | '@' => unknown
  | '`' => unknown
  | c => if isSpace c then unknown else plain

namespace Scan

def lead : Scan Lead := do
  let _ ← peekAt 3
  match ← peek with
  | none => return .endOfText
  | some c =>
    if (← mark).column = 0 ∧ c = '%' then
      return .directive
    else if ← isDocumentMark '-' then
      return .documentMark .documentStart
    else if ← isDocumentMark '.' then
      return .documentMark .documentEnd
    else
      return .ofChar (← Reader.here).inFlow (endOr isSpace (← peekAt 1)) c

/-- The byte order mark, which may come first on a line and takes a column of its own. -/
def byteOrderMark : Char := Char.ofNat 0xFEFF

/-- Passes blanks and a comment; a tab counts as a blank where no key may begin. -/
def blanks : Scan Unit := do
  if (← mark).column = 0 ∧ (← peek) = some byteOrderMark then
    skip 1
  let l ← Reader.here
  let _ ← takeWhile fun c => c == ' ' || ((l.inFlow || !l.keyAllowed) && c == '\t')
  comment

/-- A line end in a block allows a key. -/
def newLine : Scan Unit := do
  if !(← Reader.here).inFlow then
    allowKey true

/-- What is left of a line before a token or the line's end. -/
def blankTurn (_ : Unit) : Scan (Reader.Turn Unit Unit) := do
  blanks
  let text ← lineEnd
  if text = [] then
    return .done ()
  else
    newLine
    return .again ()

end Scan

theorem passes_blankTurn (u : Unit) :
    Reader.PassesIf Reader.Turn.IsAgain (Scan.blankTurn u) := by
  refine .after _ fun _ => passes_lineEnd.bindIf fun text h => ?_
  simp only [ne_eq, Decidable.not_not] at h
  rw [if_pos h]
  exact .pure id

def blankStep : Reader.Step Lexer Fault Unit Unit where
  turn := Scan.blankTurn
  passes := passes_blankTurn

namespace Scan

/-- Opens the block that an entry or a key in it needs; in a flow collection there is none. -/
def blockFor (kind : TokenKind) (problem : Problem) : Scan Unit := do
  let l ← Reader.here
  if !l.inFlow then
    if l.keyAllowed then openBlock kind else fail problem

/-- What the token that comes next means for blocks and keys. -/
def prepare : Lead → Scan Unit
  | .endOfText => return
  | .directive | .documentMark _ => do
    closeBlocks (-1)
    dropKey
    allowKey false
  | .flowStart _ => do
    keepKey
    openFlow
    allowKey true
  | .flowEnd _ => do
    dropKey
    closeFlow
    allowKey false
  | .flowEntry => do
    dropKey
    allowKey true
  | .blockEntry => do
    blockFor .blockSequenceStart .entryNotAllowed
    dropKey
    allowKey true
  | .key => do
    blockFor .blockMappingStart .keyNotAllowed
    dropKey
    allowKey !(← Reader.here).inFlow
  | .value => do
    match (← Reader.here).keyStart? with
    | some k =>
      makeKey k
      allowKey false
    | none =>
      blockFor .blockMappingStart .valueNotAllowed
      allowKey !(← Reader.here).inFlow
  | .alias | .anchor | .tag | .quoted _ | .plain => do
    keepKey
    allowKey false
  | .block _ => do
    dropKey
    allowKey true
  | .unknown => do
    failIn .noTokenStart .nextToken (← mark)

/-- Ends the stream; what has been read of a last line counts as a line. -/
def endOfStream : Scan Unit := do
  update (fun l => if l.mark.column = 0 then l else { l with mark := l.mark.nextLine 0 })
    fun l => by split <;> rfl
  closeBlocks (-1)
  dropKey
  allowKey false
  enqueue .streamEnd (← mark) (← mark)

/-- The rest of the token that begins with `c`, and where it stops. -/
def tokenRest (c : Char) (begin : Mark) : Lead → Scan (TokenKind × Mark)
  | .endOfText | .unknown => return (.streamEnd, begin)
  | .directive => directive begin
  | .documentMark kind => do
    skip 2
    return (kind, ← mark)
  | .flowStart kind | .flowEnd kind => return (kind, ← mark)
  | .flowEntry => return (.flowEntry, ← mark)
  | .blockEntry => return (.blockEntry, ← mark)
  | .key => return (.key, ← mark)
  | .value => return (.value, ← mark)
  | .alias => return (.alias (← anchorName .alias begin), ← mark)
  | .anchor => return (.anchor (← anchorName .anchor begin), ← mark)
  | .tag => return (← tag begin, ← mark)
  | .block folded => do
    let (text, stop) ← block folded begin
    return (.scalar (String.ofList text) false, stop)
  | .quoted style => return (.scalar (String.ofList (← quoted style begin)) false, ← mark)
  | .plain => do
    let (text, stop) ← plain c begin
    return (.scalar (String.ofList text) true, stop)

/-- Reads a token and puts it into the queue; false if it is the end of the stream. -/
def fetch : Scan Bool := do
  Reader.iterate blankStep ()
  dropStaleKeys
  closeBlocks (← mark).column
  let lead ← lead
  prepare lead
  let begin ← mark
  match ← next? with
  | none =>
    endOfStream
    return false
  | some c =>
    let (kind, stop) ← tokenRest c begin lead
    enqueue kind begin stop
    return true

/-- Hands out the tokens with which no key can begin any more. -/
def handOut : Scan (List Token) := do
  dropStaleKeys
  let l ← Reader.here
  let ready := l.queue.take
    (l.keyStarts.foldl (fun n k => min n (k.number - l.taken)) l.queue.length)
  update (fun l => { l with
    queue := l.queue.drop ready.length
    taken := l.taken + ready.length }) fun _ => rfl
  return ready

/-- Reads a token and hands out those that are ready; false if the stream ends with them. -/
def fetchReady : Scan (Bool × List Token) := do
  let more ← fetch
  return (more, ← handOut)

end Scan

theorem passes_fetch : Reader.PassesIf (· = true) Scan.fetch := by
  refine .after _ fun _ => .after _ fun _ => .after _ fun _ => .after _ fun _ => .after _ fun lead =>
    .after _ fun _ => .after _ fun begin => passes_next?.bindIf fun c? h => ?_
  cases c? with
  | none => exact .after _ fun _ => .pure nofun
  | some c => exact absurd rfl h

theorem passes_fetchReady : Reader.PassesIf (·.1 = true) Scan.fetchReady := by
  refine passes_fetch.bindIf fun more h => .after _ fun ready => .pure ?_
  exact h

/-- Tokens, and the fault after them, if one ends them. -/
structure Tokens where
  tokens : List Token
  fault : Option Fault

/-- The tokens from here on. -/
def tokensFrom (l : Lexer) : Tokens :=
  match _h : Scan.fetchReady.run l with
  | .error fault => ⟨[], some fault⟩
  | .ok ((false, ready), _) => ⟨ready, none⟩
  | .ok ((true, ready), l') =>
    let after := tokensFrom l'
    ⟨ready ++ after.tokens, after.fault⟩
termination_by l.rest.length
decreasing_by exact passes_fetchReady _ _ _ _h rfl

def tokens (text : String) : Tokens :=
  tokensFrom (.ofText text)

end DeletionGuard.Yaml
