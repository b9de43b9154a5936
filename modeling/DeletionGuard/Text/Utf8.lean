/-!
# UTF-8

`encode` writes characters as bytes. `decode` reads bytes back and, where they are no UTF-8, tells
how many of them were good. A group of bytes is read as a character only if that character is
written as exactly these bytes, so overlong forms and surrogates are refused with no rule of their
own.
-/

namespace DeletionGuard.Utf8

def encodeChar (c : Char) : List UInt8 :=
  let n := c.toNat
  if n < 0x80 then
    [n.toUInt8]
  else if n < 0x800 then
    [(0xC0 + n / 0x40).toUInt8, (0x80 + n % 0x40).toUInt8]
  else if n < 0x10000 then
    [(0xE0 + n / 0x1000).toUInt8, (0x80 + n / 0x40 % 0x40).toUInt8, (0x80 + n % 0x40).toUInt8]
  else
    [(0xF0 + n / 0x40000).toUInt8, (0x80 + n / 0x1000 % 0x40).toUInt8,
      (0x80 + n / 0x40 % 0x40).toUInt8, (0x80 + n % 0x40).toUInt8]

def encode (s : List Char) : List UInt8 :=
  s.flatMap encodeChar

def ofString (s : String) : List UInt8 :=
  encode s.toList

/-- How many bytes a character takes whose first byte is `lead`. -/
def width (lead : UInt8) : Nat :=
  if lead < 0x80 then 1 else if lead < 0xE0 then 2 else if lead < 0xF0 then 3 else 4

/-- The code point that a group of bytes would stand for. -/
def codePoint : List UInt8 → Nat
  | [a] => a.toNat
  | [a, b] => a.toNat % 0x20 * 0x40 + b.toNat % 0x40
  | [a, b, c] => a.toNat % 0x10 * 0x1000 + b.toNat % 0x40 * 0x40 + c.toNat % 0x40
  | [a, b, c, d] =>
    a.toNat % 0x08 * 0x40000 + b.toNat % 0x40 * 0x1000 + c.toNat % 0x40 * 0x40 + d.toNat % 0x40
  | _ => 0

/-- Puts the characters of `bytes` behind `before`, which is reversed and stands for `good` bytes. -/
def decodeAfter (good : Nat) (before : List Char) : List UInt8 → Except Nat (List Char)
  | [] => .ok before.reverse
  | lead :: rest =>
    let group := lead :: rest.take (width lead - 1)
    let c := Char.ofNat (codePoint group)
    if encodeChar c = group then
      decodeAfter (good + group.length) (c :: before) (rest.drop (width lead - 1))
    else
      .error good
termination_by bytes => bytes.length
decreasing_by simp only [List.length_drop, List.length_cons]; omega

/-- The characters of `bytes`, or the number of bytes before the first that is out of place. -/
def decode (bytes : List UInt8) : Except Nat (List Char) :=
  decodeAfter 0 [] bytes

end DeletionGuard.Utf8
