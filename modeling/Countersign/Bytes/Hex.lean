import Countersign.Bytes.Basic

/-!
# `Countersign.Bytes.Hex`: byte strings as hexadecimal text

A byte is written as two digits, high half first, with small letters. Reading takes large
letters too, and works on the UTF-8 bytes of the text: an odd number of them is refused before
any of them is looked at, and then the first byte that is no digit is named with its place.
-/

set_option autoImplicit false

namespace Countersign.Hex

/-- The digit for a value below sixteen. -/
def digit (n : Nat) : Char :=
  if n < 10 then Char.ofNat (48 + n) else Char.ofNat (87 + n)

/-- The two digits of a byte. -/
def ofByte (b : UInt8) : List Char :=
  [digit (b.toNat / 16), digit (b.toNat % 16)]

/-- The digits of a byte string. -/
def chars (bs : Bytes) : List Char :=
  bs.flatMap ofByte

/-- A byte string as text. -/
def encode (bs : Bytes) : String :=
  String.ofList (chars bs)

/-- The value of an ASCII digit, of either case. -/
def value? (b : UInt8) : Option UInt8 :=
  if 48 ≤ b ∧ b ≤ 57 then some (b - 48)
  else if 97 ≤ b ∧ b ≤ 102 then some (b - 87)
  else if 65 ≤ b ∧ b ≤ 70 then some (b - 55)
  else none

/-- Why a text is not hexadecimal. -/
inductive Malformed where
  /-- The text has an odd number of bytes. -/
  | oddLength
  /-- The byte at this place is no digit. -/
  | badDigit (byte : UInt8) (place : Nat)
  deriving DecidableEq, Repr

/-- Reads pairs of digits; `place` counts the bytes before the first of them. -/
def decodeFrom : (place : Nat) → Bytes → Except Malformed Bytes
  | place, hi :: lo :: rest =>
    match value? hi, value? lo with
    | none, _ => .error (.badDigit hi place)
    | some _, none => .error (.badDigit lo (place + 1))
    | some h, some l => (decodeFrom (place + 2) rest).map ((h * 16 + l) :: ·)
  | _, [_] => .error .oddLength
  | _, [] => .ok []

/-- Reads hexadecimal text given as its bytes. The length is looked at first. -/
def decode (text : Bytes) : Except Malformed Bytes :=
  if text.length % 2 = 1 then .error .oddLength else decodeFrom 0 text

end Countersign.Hex
