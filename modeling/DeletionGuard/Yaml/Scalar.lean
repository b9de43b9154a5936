import DeletionGuard.Numeric.Numeral
import DeletionGuard.Numeric.Shortest
import DeletionGuard.Text.Quoted
import DeletionGuard.Text.Utf8

/-!
# What scalars stand for

A plain scalar without a tag stands for null, a boolean, a number or its own text, told apart by
its spelling. A tag can ask for one of these.
-/

namespace DeletionGuard.Yaml

inductive ScalarValue where
  | null
  | boolean (b : Bool)
  | integer (n : Int)
  | real (negative : Bool) (x : Binary64)
  | infinity (negative : Bool)
  | notANumber
  | text (s : String)
  deriving DecidableEq, Repr

namespace ScalarValue

/-- Numbers are written without an exponent. -/
def layout : NumberLayout := ⟨fun _ => true⟩

/-- The numbers that 64 bits hold with a sign or without; greater ones name their type. -/
def isShortInteger (n : Int) : Bool :=
  -powerOfTwo 63 ≤ n && n < powerOfTwo 64

def phrase : ScalarValue → String
  | null => "unit value"
  | boolean b => "boolean `" ++ (if b then "true" else "false") ++ "`"
  | integer n =>
    "integer `" ++ toString n ++ "`" ++
      (if isShortInteger n then "" else if n < 0 then " as i128" else " as u128")
  | real negative x => "floating point `" ++ layout.text negative x ++ "`"
  | infinity negative => "floating point `" ++ (if negative then "-inf" else "inf") ++ "`"
  | notANumber => "floating point `NaN`"
  | text s => "string " ++ Text.quote s

end ScalarValue

/-! ## Spellings -/

def isNull (s : String) : Bool :=
  ["null", "Null", "NULL", "~"].contains s

def boolean? (s : String) : Option Bool :=
  if ["true", "True", "TRUE"].contains s then some true
  else if ["false", "False", "FALSE"].contains s then some false
  else none

/-- Splits off a sign: whether it is one, and whether it is negative. -/
def splitSign : List Char → Option Bool × List Char
  | '+' :: cs => (some false, cs)
  | '-' :: cs => (some true, cs)
  | cs => (none, cs)

/-- Digits that start with a zero and another digit are no number. -/
def isZeroLed (cs : List Char) : Bool :=
  match (splitSign cs).2 with
  | '0' :: d :: ds => (d :: ds).all Char.isDigit
  | _ => false

/-- The magnitude of an integer whose sign has been split off. -/
def magnitude? : List Char → Option Nat
  | '0' :: 'x' :: cs => natural? 16 cs
  | '0' :: 'o' :: cs => natural? 8 cs
  | '0' :: 'b' :: cs => natural? 2 cs
  | cs => if isZeroLed cs then none else natural? 10 cs

/-- An integer that 128 bits hold, with a sign or without. -/
def integer? (cs : List Char) : Option Int := do
  let (sign, digits) := splitSign cs
  let n ← magnitude? digits
  if sign = some true then
    if n ≤ powerOfTwo 127 then some (-n) else none
  else
    if n < powerOfTwo 128 then some n else none

/-- The exponent behind the digits of a real number, if there is one. -/
def exponent? : List Char → Option Int
  | [] => some 0
  | c :: cs =>
    if c = 'e' ∨ c = 'E' then
      let (sign, digits) := splitSign cs
      (natural? 10 digits).map fun n => if sign = some true then -(n : Int) else n
    else
      none

/-- No number with more digits before its point is finite, and with more zeros behind it is not 0. -/
def maxPoint : Int := 400

/-- The number nearest to `digits * 10 ^ e`; `none` if that is out of range. -/
def nearest? (digits : List Char) (e : Int) : Option Binary64 :=
  let significant := digits.dropWhile (· == '0')
  let point := significant.length + e
  if significant.isEmpty ∨ point < -maxPoint then some .zero
  else if maxPoint < point then none
  else (natural? 10 significant).bind fun n => Binary64.ofDecimal n e

/-- A finite number in decimal digits, with a point and an exponent or without. -/
def decimal? (cs : List Char) : Option Binary64 := do
  let whole := cs.takeWhile Char.isDigit
  let rest := cs.dropWhile Char.isDigit
  let behind := if rest.head? = some '.' then rest.drop 1 else []
  let fraction := behind.takeWhile Char.isDigit
  let rest := if rest.head? = some '.' then behind.dropWhile Char.isDigit else rest
  if whole.isEmpty ∧ fraction.isEmpty then
    none
  else
    let e ← exponent? rest
    nearest? (whole ++ fraction) (e - fraction.length)

/-- A number with a fraction, an exponent or a special spelling. -/
def real? (s : String) : Option ScalarValue :=
  let (sign, cs) := splitSign s.toList
  let negative := sign = some true
  let unsigned := String.ofList cs
  if [".inf", ".Inf", ".INF"].contains unsigned then some (.infinity negative)
  else if [".nan", ".NaN", ".NAN"].contains s then some .notANumber
  else (decimal? cs).map (.real negative)

/-- What a plain scalar without a tag stands for. -/
def plainValue (s : String) : ScalarValue :=
  if s.isEmpty || isNull s then
    .null
  else
    match boolean? s, integer? s.toList with
    | some b, _ => .boolean b
    | none, some n => .integer n
    | none, none => if isZeroLed s.toList then .text s else (real? s).getD (.text s)

/-! ## Tags -/

/-- The types that a tag can ask for. -/
inductive TaggedType where
  | boolean
  | integer
  | real
  | null
  deriving DecidableEq, Repr

namespace TaggedType

def ofTag? (tag : List UInt8) : Option TaggedType :=
  if tag = Utf8.ofString "tag:yaml.org,2002:bool" then some boolean
  else if tag = Utf8.ofString "tag:yaml.org,2002:int" then some integer
  else if tag = Utf8.ofString "tag:yaml.org,2002:float" then some real
  else if tag = Utf8.ofString "tag:yaml.org,2002:null" then some null
  else none

def phrase : TaggedType → String
  | boolean => "a boolean"
  | integer => "an integer"
  | real => "a float"
  | null => "null"

def value? (type : TaggedType) (s : String) : Option ScalarValue :=
  match type with
  | boolean => (boolean? s).map .boolean
  | integer => (integer? s.toList).map .integer
  | real => real? s
  | null => if isNull s then some .null else none

end TaggedType

/-- Whether a tag is one that the document itself gives a meaning to. -/
def isLocalTag (tag : List UInt8) : Bool :=
  tag.head? = some 0x21

/-- What a scalar stands for; an error is the type that its tag asks for in vain. -/
def scalarValue (tag : Option (List UInt8)) (s : String) (plain : Bool) :
    Except TaggedType ScalarValue :=
  match tag with
  | none => .ok (if plain then plainValue s else .text s)
  | some tag =>
    match TaggedType.ofTag? tag with
    | some type =>
      match type.value? s with
      | some v => .ok v
      | none => .error type
    | none => .ok (if isLocalTag tag && plain then plainValue s else .text s)

end DeletionGuard.Yaml
