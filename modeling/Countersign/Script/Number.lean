import Countersign.Bytes.Basic

/-!
# `Countersign.Script.Number`: numbers as stack items

A number is the bytes of its magnitude, least significant first and no more than are needed; the
top bit of the last byte is the sign. Zero is the empty item. If the magnitude needs that bit
itself, one more byte carries the sign.

An item of more than eight bytes is read as -1, so that it fails every test of a count.
-/

set_option autoImplicit false

namespace Countersign.Number

/-- The bytes of a magnitude, least significant first, none of them needless. -/
def magnitude (n : Nat) : Bytes :=
  if n = 0 then [] else UInt8.ofNat n :: magnitude (n / 256)
termination_by n

/-- Puts the sign into the top bit of the last byte, or into a byte of its own. -/
def withSign (negative : Bool) : Bytes → Bytes
  | [] => []
  | [b] =>
    if 0x80 ≤ b then [b, if negative then 0x80 else 0x00]
    else [if negative then b ||| 0x80 else b]
  | b :: bs => b :: withSign negative bs

/-- The item for a number. -/
def encode (n : Int) : Bytes :=
  withSign (n < 0) (magnitude n.natAbs)

/-- The item without the sign in the top bit of its last byte. -/
def withoutSign : Bytes → Bytes
  | [] => []
  | [b] => [b &&& 0x7F]
  | b :: bs => b :: withoutSign bs

/-- The number that an item stands for. -/
def decode (item : Bytes) : Int :=
  match item.getLast? with
  | none => 0
  | some last =>
    if 8 < item.length then -1
    else if 0x80 ≤ last then -(Bytes.toNatLE (withoutSign item) : Int)
    else Bytes.toNatLE item

end Countersign.Number
