import DeletionGuard.Json.Cursor

/-!
# Numbers

A number that stands where another value is due is read in full. Without fraction and exponent it
is an integer if 64 bits hold it, with a sign or without. Every other number is a binary floating
point number, made from as many leading digits as fit into 64 bits and one multiplication or
division by a power of ten, so it need not be the nearest one. `skipNumber` only checks the form.
-/

namespace DeletionGuard.Json

/-- The greatest number of 64 bits. -/
def maxSignificand : Nat := powerOfTwo 64 - 1

/-- The greatest exponent that is told apart from an overlong one. -/
def maxExponent : Nat := powerOfTwo 31 - 1

/-- The greatest power of ten within range. -/
def maxPower : Nat := 308

/-- Appends digits to `n` for as long as `limit` is not passed; also the digits left over. -/
def appendDigits (limit n : Nat) : List UInt8 → Nat × List UInt8
  | [] => (n, [])
  | b :: bs =>
    let n' := n * 10 + digitValue b
    if limit < n' then (n, b :: bs) else appendDigits limit n' bs

/-- Divides by powers of ten, one factor at a time. -/
def divideByPower (x : Binary64) (e : Nat) : Option Binary64 :=
  if x.isZero then
    some x
  else if maxPower < e then do
    let x' ← x.div (← Binary64.ofDecimal 1 maxPower)
    divideByPower x' (e - maxPower)
  else do
    x.div (← Binary64.ofDecimal 1 e)
termination_by e
decreasing_by simp [maxPower] at *; omega

/-- The number `significand * 10 ^ e` by one multiplication or by divisions. -/
def realOf (significand : Nat) (e : Int) : Option Binary64 := do
  let x ← Binary64.ofDecimal significand 0
  if e < 0 then
    divideByPower x e.natAbs
  else if x.isZero then
    some x
  else if maxPower < e.natAbs then
    none
  else
    x.mul (← Binary64.ofDecimal 1 e)

/-- The value of a number without fraction and exponent that 64 bits hold. -/
def integerOf (negative : Bool) (significand : Nat) : Number :=
  if negative then
    if significand = 0 ∨ powerOfTwo 63 < significand then
      .real true ((Binary64.ofDecimal significand 0).getD .zero)
    else
      .integer (-significand)
  else
    .integer significand

namespace Read

def digits : Read (List UInt8) :=
  takeWhile isDigit

/-- The digits before the point. A leading zero stands alone. -/
def wholeDigits : Read (List UInt8) := do
  let b ← nextIn .value
  if b = byte '0' then
    if (← peek).any isDigit then failAhead .invalidNumber else return [b]
  else if isDigit b then
    return b :: (← digits)
  else
    fail .invalidNumber

/-- The digits behind the point, if there is one. -/
def fractionDigits : Read (Option (List UInt8)) := do
  if (← peek) = some (byte '.') then
    discard
    let ds ← digits
    if ds.isEmpty then
      match ← peek with
      | some _ => failAhead .invalidNumber
      | none => failAhead (.endOfInput .value)
    else
      return some ds
  else
    return none

/-- The sign of an exponent, which may be missing. -/
def exponentSign : Read Bool := do
  let b ← peek
  if b = some (byte '+') then
    discard
    return false
  else if b = some (byte '-') then
    discard
    return true
  else
    return false

/-- Appends the digits from here on to an exponent. The first digit that puts the number out of
range is the last to be passed. -/
def exponentDigits (outOfRange : Bool) (e : Nat) : Read (Option Nat) where
  run c :=
    let ds := c.rest.takeWhile isDigit
    let (e', left) := appendDigits maxExponent e ds
    if left.isEmpty then
      .ok (some e', (c.pass ds.length).look)
    else if outOfRange then
      let stop := c.pass (ds.length - left.length + 1)
      .error ⟨.numberOutOfRange, stop.offset, stop.seen⟩
    else
      .ok (none, (c.pass ds.length).look)
  forward c a c' h := by
    dsimp only at h
    split at h
    · cases h
      simp [Measured.left, Cursor.rest_look, Cursor.pass]
    · split at h <;> cases h
      simp [Measured.left, Cursor.rest_look, Cursor.pass]

/-- The exponent behind its mark, or `none` if it is overlong; a zero stays in range. -/
def exponent (isZero : Bool) : Read (Bool × Option Nat) := do
  discard
  let negative ← exponentSign
  let b ← nextIn .value
  if isDigit b then
    return (negative, ← exponentDigits (!isZero && !negative) (digitValue b))
  else
    fail .invalidNumber

/-- A number that is read in full; its sign has been passed. -/
def number (negative : Bool) : Read Number := do
  let (n, surplus) := appendDigits maxSignificand 0 (← wholeDigits)
  let fraction ← fractionDigits
  let (significand, left) := appendDigits maxSignificand n (fraction.getD [])
  let shift : Int := surplus.length - ((fraction.getD []).length - left.length : Nat)
  let mark ← peek
  if mark = some (byte 'e') ∨ mark = some (byte 'E') then
    match ← exponent (significand == 0) with
    | (_, none) => return .real negative .zero
    | (below, some e) => finish significand (if below then shift - e else shift + e)
  else if fraction.isNone ∧ surplus.isEmpty then
    return integerOf negative n
  else
    finish significand shift
where
  finish (significand : Nat) (e : Int) : Read Number :=
    match realOf significand e with
    | some x => return .real negative x
    | none => fail .numberOutOfRange

/-- Passes the digits that must come next. -/
def skipSomeDigits : Read Unit := do
  let b ← next
  if b.any isDigit then
    let _ ← digits
  else
    fail .invalidNumber

def skipFraction : Read Unit := do
  if (← peek) = some (byte '.') then
    discard
    if (← digits).isEmpty then failAhead .invalidNumber

def skipExponent : Read Unit := do
  let mark ← peek
  if mark = some (byte 'e') ∨ mark = some (byte 'E') then
    discard
    let _ ← exponentSign
    skipSomeDigits

/-- Passes a number of which `first` has been passed already. -/
def skipNumber (first : Option UInt8) : Read Unit := do
  if first = some (byte '0') then
    if (← peek).any isDigit then failAhead .invalidNumber
  else if first.any isDigit then
    let _ ← digits
  else
    fail .invalidNumber
  skipFraction
  skipExponent

end Read

end DeletionGuard.Json
