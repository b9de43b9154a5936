import DeletionGuard.Numeric.Numeral

/-!
# JSON texts

The grammar of JSON as a type of syntax trees. A tree keeps everything that is written, the blanks
between tokens and the spelling of every character included, so it stands for exactly one text,
`Node.text`, and a text is JSON exactly if it is the text of a `Document`. What a tree cannot hold,
such as a control character in a literal or a leading zero, no JSON text holds.
-/

namespace DeletionGuard.Json

/-! ### Blanks -/

def isBlankChar (c : Char) : Bool :=
  c == ' ' || c == '\t' || c == '\n' || c == '\r'

/-- What may stand between two tokens. -/
structure Blanks where
  chars : List Char
  blank : ∀ c ∈ chars, isBlankChar c = true

namespace Blanks

def none : Blanks where
  chars := []
  blank := by simp

@[simp] theorem chars_none : none.chars = [] := rfl

def append (before after : Blanks) : Blanks where
  chars := before.chars ++ after.chars
  blank c h := (List.mem_append.1 h).elim (before.blank c) (after.blank c)

@[simp] theorem chars_append (before after : Blanks) :
    (before.append after).chars = before.chars ++ after.chars := rfl

end Blanks

/-! ### Literals -/

/-- The escapes of one letter. -/
inductive Escape where
  | quote
  | backslash
  | slash
  | backspace
  | formFeed
  | lineFeed
  | carriageReturn
  | tab
  deriving DecidableEq, Repr

namespace Escape

def letter : Escape → Char
  | quote => '"'
  | backslash => '\\'
  | slash => '/'
  | backspace => 'b'
  | formFeed => 'f'
  | lineFeed => 'n'
  | carriageReturn => 'r'
  | tab => 't'

/-- The character that an escape stands for. -/
def char : Escape → Char
  | quote => '"'
  | backslash => '\\'
  | slash => '/'
  | backspace => Char.ofNat 0x08
  | formFeed => Char.ofNat 0x0C
  | lineFeed => Char.ofNat 0x0A
  | carriageReturn => Char.ofNat 0x0D
  | tab => Char.ofNat 0x09

end Escape

/-- A hexadecimal digit of either case. -/
structure HexDigit where
  char : Char
  hex : (digitOf? 16 char).isSome = true

def HexDigit.value (d : HexDigit) : Nat :=
  (digitOf? 16 d.char).get d.hex

/-- Four hexadecimal digits, which name a code unit of sixteen bits. -/
structure CodeUnit where
  first : HexDigit
  second : HexDigit
  third : HexDigit
  fourth : HexDigit

namespace CodeUnit

def chars (u : CodeUnit) : List Char :=
  [u.first.char, u.second.char, u.third.char, u.fourth.char]

def value (u : CodeUnit) : Nat :=
  ((u.first.value * 16 + u.second.value) * 16 + u.third.value) * 16 + u.fourth.value

/-- The first half of a surrogate pair. -/
def IsLeading (u : CodeUnit) : Prop := 0xD800 ≤ u.value ∧ u.value < 0xDC00

/-- The second half of a surrogate pair. -/
def IsTrailing (u : CodeUnit) : Prop := 0xDC00 ≤ u.value ∧ u.value < 0xE000

instance (u : CodeUnit) : Decidable u.IsLeading := inferInstanceAs (Decidable (_ ∧ _))

instance (u : CodeUnit) : Decidable u.IsTrailing := inferInstanceAs (Decidable (_ ∧ _))

/-- The character that a surrogate pair stands for. -/
def paired (u v : CodeUnit) : Char :=
  Char.ofNat (0x10000 + (u.value - 0xD800) * 0x400 + (v.value - 0xDC00))

end CodeUnit

/-- Whether a character may stand for itself in a literal. -/
def isUnescaped (c : Char) : Bool :=
  0x20 ≤ c.toNat && c != '"' && c != '\\'

/-- What one or two or six characters of a literal write. -/
inductive Piece where
  | raw (c : Char) (unescaped : isUnescaped c = true)
  | escape (e : Escape)
  | unit (u : CodeUnit)

def Piece.text : Piece → List Char
  | raw c _ => [c]
  | escape e => ['\\', e.letter]
  | unit u => '\\' :: 'u' :: u.chars

def piecesText (ps : List Piece) : List Char :=
  ps.flatMap Piece.text

@[simp] theorem piecesText_nil : piecesText [] = [] := rfl

@[simp] theorem piecesText_cons (p : Piece) (ps : List Piece) :
    piecesText (p :: ps) = p.text ++ piecesText ps := rfl

/-- The characters that pieces stand for. There are none if a surrogate stands alone. -/
def unescape? : List Piece → Option (List Char)
  | [] => some []
  | .raw c _ :: ps => (unescape? ps).map (c :: ·)
  | .escape e :: ps => (unescape? ps).map (e.char :: ·)
  | .unit u :: ps =>
    if u.IsTrailing then none
    else if u.IsLeading then
      match ps with
      | .unit v :: ps => if v.IsTrailing then (unescape? ps).map (u.paired v :: ·) else none
      | _ => none
    else (unescape? ps).map (Char.ofNat u.value :: ·)

structure Literal where
  pieces : List Piece

/-- The string that a literal stands for. -/
def Literal.string? (l : Literal) : Option String :=
  (unescape? l.pieces).map String.ofList

def Literal.text (l : Literal) : List Char :=
  '"' :: piecesText l.pieces ++ ['"']

/-! ### Numbers -/

structure Digits where
  chars : List Char
  ne_nil : chars ≠ []
  digits : ∀ c ∈ chars, c.isDigit = true

/-- The sign of an exponent, which may be missing. -/
inductive ExponentSign where
  | none
  | plus
  | minus
  deriving DecidableEq, Repr

def ExponentSign.text : ExponentSign → List Char
  | none => []
  | plus => ['+']
  | minus => ['-']

structure Exponent where
  capital : Bool
  sign : ExponentSign
  digits : Digits

def Exponent.text (e : Exponent) : List Char :=
  (if e.capital then 'E' else 'e') :: e.sign.text ++ e.digits.chars

/-- A number as it is written; a leading zero stands alone. -/
structure Numeral where
  negative : Bool
  whole : Digits
  alone : whole.chars.head? = some '0' → whole.chars = ['0']
  fraction : Option Digits
  exponent : Option Exponent

namespace Numeral

def fractionText : Option Digits → List Char
  | none => []
  | some ds => '.' :: ds.chars

def exponentText : Option Exponent → List Char
  | none => []
  | some e => e.text

/-- A number without its sign. -/
def magnitude (n : Numeral) : List Char :=
  n.whole.chars ++ (fractionText n.fraction ++ exponentText n.exponent)

def text (n : Numeral) : List Char :=
  if n.negative then '-' :: n.magnitude else n.magnitude

end Numeral

/-! ### Values -/

/-- Something with blanks around it. -/
structure Padded (α : Type) where
  before : Blanks
  value : α
  after : Blanks

structure Member (α : Type) where
  key : Padded Literal
  value : Padded α

/-- What stands between brackets: only blanks, or parts with commas between them. -/
inductive Body (α : Type) where
  | blank (inside : Blanks)
  | filled (first : α) (more : List α)

def Body.toList {α : Type} : Body α → List α
  | blank _ => []
  | filled x xs => x :: xs

/-- The syntax tree of a value. -/
inductive Node where
  | null
  | boolean (b : Bool)
  | number (n : Numeral)
  | string (l : Literal)
  | list (items : Body (Padded Node))
  | object (members : Body (Member Node))

/-- A text is a value with blanks around it. -/
abbrev Document := Padded Node

namespace Padded

variable {α : Type} (f : α → List Char)

def render (x : Padded α) : List Char :=
  x.before.chars ++ f x.value ++ x.after.chars

end Padded

def Member.render {α : Type} (f : α → List Char) (m : Member α) : List Char :=
  m.key.render Literal.text ++ ':' :: m.value.render f

namespace Body

variable {α : Type} (f : α → List Char)

/-- Parts with a comma before each of them. -/
def renderMore (xs : List α) : List Char :=
  xs.flatMap fun x => ',' :: f x

def render : Body α → List Char
  | blank ws => ws.chars
  | filled x xs => f x ++ renderMore f xs

end Body

namespace Node

mutual

def text : Node → List Char
  | null => "null".toList
  | boolean true => "true".toList
  | boolean false => "false".toList
  | number n => n.text
  | string l => l.text
  | list items => '[' :: itemsText items ++ [']']
  | object members => '{' :: membersText members ++ ['}']

def itemsText : Body (Padded Node) → List Char
  | .blank ws => ws.chars
  | .filled x xs => paddedText x ++ moreItemsText xs

def moreItemsText : List (Padded Node) → List Char
  | [] => []
  | x :: xs => ',' :: paddedText x ++ moreItemsText xs

def membersText : Body (Member Node) → List Char
  | .blank ws => ws.chars
  | .filled m ms => memberText m ++ moreMembersText ms

def moreMembersText : List (Member Node) → List Char
  | [] => []
  | m :: ms => ',' :: memberText m ++ moreMembersText ms

def memberText : Member Node → List Char
  | ⟨key, value⟩ => key.render Literal.text ++ ':' :: paddedText value

def paddedText : Padded Node → List Char
  | ⟨before, value, after⟩ => before.chars ++ text value ++ after.chars

end

theorem paddedText_eq (x : Padded Node) : paddedText x = x.render text := by
  cases x
  rfl

theorem memberText_eq (m : Member Node) : memberText m = m.render text := by
  cases m
  rw [memberText, paddedText_eq, Member.render]

theorem moreItemsText_eq (xs : List (Padded Node)) :
    moreItemsText xs = Body.renderMore (Padded.render text) xs := by
  induction xs with
  | nil => rfl
  | cons x xs ih => rw [moreItemsText, paddedText_eq, ih]; rfl

theorem moreMembersText_eq (ms : List (Member Node)) :
    moreMembersText ms = Body.renderMore (Member.render text) ms := by
  induction ms with
  | nil => rfl
  | cons m ms ih => rw [moreMembersText, memberText_eq, ih]; rfl

theorem text_list (items : Body (Padded Node)) :
    (list items).text = '[' :: items.render (Padded.render text) ++ [']'] := by
  cases items with
  | blank ws => rfl
  | filled x xs => rw [text, itemsText, paddedText_eq, moreItemsText_eq]; rfl

theorem text_object (members : Body (Member Node)) :
    (object members).text = '{' :: members.render (Member.render text) ++ ['}'] := by
  cases members with
  | blank ws => rfl
  | filled m ms => rw [text, membersText, memberText_eq, moreMembersText_eq]; rfl

/-- Induction on a value, with the values inside a list or an object at hand. -/
@[induction_eliminator]
theorem induct {P : Node → Prop} (null : P null) (boolean : ∀ b, P (boolean b))
    (number : ∀ n, P (number n)) (string : ∀ l, P (string l))
    (list : ∀ items, (∀ x ∈ items.toList, P x.value) → P (list items))
    (object : ∀ members, (∀ m ∈ members.toList, P m.value.value) → P (object members))
    (n : Node) : P n :=
  Node.rec (motive_1 := P) (motive_2 := fun items => ∀ x ∈ items.toList, P x.value)
    (motive_3 := fun members => ∀ m ∈ members.toList, P m.value.value)
    (motive_4 := fun x => P x.value) (motive_5 := fun xs => ∀ x ∈ xs, P x.value)
    (motive_6 := fun m => P m.value.value) (motive_7 := fun ms => ∀ m ∈ ms, P m.value.value)
    null boolean number string list object
    (fun _ _ h => nomatch h) (fun _ _ hx hxs => List.forall_mem_cons.2 ⟨hx, hxs⟩)
    (fun _ _ h => nomatch h) (fun _ _ hm hms => List.forall_mem_cons.2 ⟨hm, hms⟩)
    (fun _ _ _ h => h)
    (fun _ h => nomatch h) (fun _ _ hx hxs => List.forall_mem_cons.2 ⟨hx, hxs⟩)
    (fun _ _ h => h)
    (fun _ h => nomatch h) (fun _ _ hm hms => List.forall_mem_cons.2 ⟨hm, hms⟩) n

end Node

def Document.text (d : Document) : String :=
  String.ofList (d.render Node.text)

end DeletionGuard.Json
