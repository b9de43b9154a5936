import DeletionGuard.Numeric.Numeral
import DeletionGuard.Reading
import DeletionGuard.Text.Utf8
import DeletionGuard.Yaml.Token

/-!
# Reading characters

The text of a stream is taken in portions of a fixed size. A control character is found when its
portion is taken, so what can be read is everything before that portion. The lexer's state holds
the characters still to be read, the tokens that are ready, and what is open: indentation, flow
collections, and the places where a key may have begun.
-/

namespace DeletionGuard.Yaml

/-- Whether a text may hold `c`. -/
def isAllowed (c : Char) : Bool :=
  let n := c.toNat
  n == 0x09 || n == 0x0A || n == 0x0D || (0x20 ≤ n && n ≤ 0x7E) || n == 0x85 ||
    (0xA0 ≤ n && n ≤ 0xD7FF) || (0xE000 ≤ n && n ≤ 0xFFFD) || 0x10000 ≤ n

/-- What comes after the characters that can be read. -/
inductive Ending where
  | endOfText
  | controlCharacter (offset : Nat)
  deriving DecidableEq, Repr

/-- The number of bytes in a portion. -/
def portion : Nat := 16384

/-- Splits off the portions that can be read. `taken` and `current` are reversed; `offset` counts
bytes, and this portion ends at `limit`. -/
def readableFrom (taken current : List Char) (offset limit : Nat) :
    List Char → List Char × Ending
  | [] => ((current ++ taken).reverse, .endOfText)
  | c :: cs =>
    let size := (Utf8.encodeChar c).length
    if isAllowed c then
      if offset + size ≤ limit then
        readableFrom taken (c :: current) (offset + size) limit cs
      else
        readableFrom (current ++ taken) [c] (offset + size) (offset + portion) cs
    else if offset + size ≤ limit then
      (taken.reverse, .controlCharacter offset)
    else
      ((current ++ taken).reverse, .controlCharacter offset)

/-- The characters of a text that can be read, and what comes after them. -/
def readable (cs : List Char) : List Char × Ending :=
  readableFrom [] [] 0 portion cs

/-- A place where a key may have begun; in a block, a required one must turn out to be a key. -/
structure KeyStart where
  required : Bool
  /-- How many flow collections are open around it. -/
  depth : Nat
  /-- The number of the token that the key starts with. -/
  number : Nat
  mark : Mark
  deriving DecidableEq, Repr

structure Lexer where
  rest : List Char
  ending : Ending
  mark : Mark
  /-- Tokens that are not handed out yet. -/
  queue : List Token
  /-- How many tokens have been handed out. -/
  taken : Nat
  /-- The column of the innermost block, or -1 outside of all blocks. -/
  indent : Int
  outerIndents : List Int
  /-- Whether a key may begin here. -/
  keyAllowed : Bool
  /-- How many flow collections are open. -/
  flowDepth : Nat
  /-- Where a key may have begun, at most one place in each collection, the innermost first. -/
  keyStarts : List KeyStart

namespace Lexer

def ofText (text : String) : Lexer :=
  let (rest, ending) := readable text.toList
  { rest, ending
    mark := .start
    queue := []
    taken := 0
    indent := -1
    outerIndents := []
    keyAllowed := true
    flowDepth := 0
    keyStarts := [] }

/-- Whether a flow collection is open. -/
def inFlow (l : Lexer) : Bool :=
  l.flowDepth != 0

/-- Where a key may have begun in the innermost collection. -/
def keyStart? (l : Lexer) : Option KeyStart :=
  l.keyStarts.head?.filter (·.depth == l.flowDepth)

end Lexer

instance : Measured Lexer := ⟨fun l => l.rest.length⟩

abbrev Scan := Reader Lexer Fault

/-! ## Classes of characters -/

def isBreak (c : Char) : Bool :=
  c == '\r' || c == '\n' || c == Char.ofNat 0x85 || c == Char.ofNat 0x2028 ||
    c == Char.ofNat 0x2029

def isBlank (c : Char) : Bool :=
  c == ' ' || c == '\t'

/-- Blanks and line ends. -/
def isSpace (c : Char) : Bool :=
  isBlank c || isBreak c

def isWord (c : Char) : Bool :=
  c.isAlphanum || c == '_' || c == '-'

/-- The number that `n` hexadecimal digits at the start of a text stand for. -/
def hexNumber? (n : Nat) (cs : List Char) : Option Nat :=
  let digits := cs.take n
  if digits.length < n then none else natural? 16 digits

/-- Whether the end of the text or a character that satisfies `p` comes next. -/
def endOr (p : Char → Bool) : Option Char → Bool
  | none => true
  | some c => p c

/-- The text of a line end: one of the old forms counts as a line feed. -/
def breakText (c : Char) : List Char :=
  if c == Char.ofNat 0x2028 || c == Char.ofNat 0x2029 then [c] else ['\n']

namespace Scan

/-- Fails at `place`, with what was being read since `begin`. -/
def failAt (problem : Problem) (place : Mark) (activity : Activity) (begin : Mark) : Scan α :=
  Reader.failWith fun _ => ⟨problem, .mark place, some (activity, begin)⟩

/-- Fails here, with what was being read since `begin`. -/
def failIn (problem : Problem) (activity : Activity) (begin : Mark) : Scan α :=
  Reader.failWith fun l => ⟨problem, .mark l.mark, some (activity, begin)⟩

def fail (problem : Problem) : Scan α :=
  Reader.failWith fun l => ⟨problem, .mark l.mark, none⟩

def mark : Scan Mark := do
  return (← Reader.here).mark

/-- The character `k` places ahead, if the text goes that far. -/
def peekAt (k : Nat) : Scan (Option Char) where
  run l :=
    match l.rest[k]?, l.ending with
    | some c, _ => .ok (some c, l)
    | none, .endOfText => .ok (none, l)
    | none, .controlCharacter offset => .error ⟨.controlCharacter, .byte offset, none⟩
  forward l a l' h := by
    split at h <;> cases h <;> exact Nat.le_refl _

def peek : Scan (Option Char) :=
  peekAt 0

def next? : Scan (Option Char) where
  run l :=
    match l.rest with
    | [] => .ok (none, l)
    | c :: rest => .ok (some c, { l with rest, mark := l.mark.forward [c] })
  forward l a l' h := by
    split at h <;> cases h <;> simp_all [Measured.left]

/-- Passes `n` characters of one line. -/
def skip (n : Nat) : Scan Unit :=
  Reader.update (fun l => { l with rest := l.rest.drop n, mark := l.mark.forward (l.rest.take n) })
    fun l => by simp [Measured.left]

/-- Passes the characters up to the first for which `p` is false, all on one line. -/
def takeWhile (p : Char → Bool) : Scan (List Char) := do
  let taken := (← Reader.here).rest.takeWhile p
  skip taken.length
  let _ ← peek
  return taken

/-- Passes a line end, if there is one, and gives its text. -/
def lineEnd : Scan (List Char) where
  run l :=
    match l.rest with
    | '\r' :: '\n' :: rest => .ok (['\n'], { l with rest, mark := l.mark.nextLine 2 })
    | c :: rest =>
      if isBreak c then .ok (breakText c, { l with rest, mark := l.mark.nextLine c.utf8Size })
      else .ok ([], l)
    | [] => .ok ([], l)
  forward l a l' h := by
    split at h
    · rename_i rest hr
      cases h
      simp only [Measured.left, hr, List.length_cons]
      omega
    · split at h <;> cases h <;> simp_all [Measured.left]
    · cases h; exact Nat.le_refl _

def comment : Scan Unit := do
  if (← peek) = some '#' then
    let _ ← takeWhile (!isBreak ·)

/-- Passes blanks and a comment to the end of the line, and the line end; nothing else may come. -/
def restOfLine (activity : Activity) (begin : Mark) : Scan Unit := do
  let _ ← takeWhile isBlank
  comment
  if endOr isBreak (← peek) then
    let _ ← lineEnd
  else
    failIn .missingLineEnd activity begin

/-- Goes on with `t` behind the next character, or ends with `a` if there is none. -/
def passOn (t : τ) (a : α) : Scan (Reader.Turn τ α) := do
  match ← next? with
  | none => return .done a
  | some _ => return .again t

/-- Goes on behind a line end with what its text gives, or ends with `a` if there is none. -/
def passLineEnd (t : List Char → τ) (a : α) : Scan (Reader.Turn τ α) := do
  let text ← lineEnd
  if text = [] then return .done a else return .again (t text)

/-- Changes what the lexer keeps besides the text. -/
def update (f : Lexer → Lexer) (same : ∀ l, (f l).rest = l.rest) : Scan Unit :=
  Reader.update f fun l => by simp [Measured.left, same]

/-- Whether a line with only the three characters `c`, or these and a blank, begins here. -/
def isDocumentMark (c : Char) : Scan Bool := do
  if (← mark).column ≠ 0 then
    return false
  else
    let beyond ← peekAt 3
    return (← peek) = some c && (← peekAt 1) = some c && (← peekAt 2) = some c && endOr isSpace beyond

/-- Whether a document ends or starts here. -/
def atDocumentMark : Scan Bool := do
  return (← isDocumentMark '-') || (← isDocumentMark '.')

end Scan

theorem passes_next? : Reader.PassesIf (·.isSome) Scan.next? := by
  intro l a l' h ha
  unfold Scan.next? at h
  dsimp only at h
  split at h <;> cases h
  · simp at ha
  · simp_all [Measured.left]

theorem passes_lineEnd : Reader.PassesIf (· ≠ []) Scan.lineEnd := by
  intro l a l' h ha
  unfold Scan.lineEnd at h
  dsimp only at h
  split at h
  · rename_i rest hr
    cases h
    simp only [Measured.left, hr, List.length_cons]
    omega
  · split at h <;> cases h
    · simp_all [Measured.left]
    · simp at ha
  · cases h; simp at ha

theorem passes_passOn (t : τ) (a : α) : Reader.PassesIf Reader.Turn.IsAgain (Scan.passOn t a) := by
  refine passes_next?.bindIf fun c? h => ?_
  cases c? with
  | none => exact .pure id
  | some c => exact absurd rfl h

theorem passes_passLineEnd (t : List Char → τ) (a : α) :
    Reader.PassesIf Reader.Turn.IsAgain (Scan.passLineEnd t a) := by
  refine passes_lineEnd.bindIf fun text h => ?_
  simp only [ne_eq, Decidable.not_not] at h
  rw [if_pos h]
  exact .pure id

end DeletionGuard.Yaml
