import Countersign.Curve.Point
import Countersign.Signature.Scheme

/-!
# `Countersign.Curve.Ecdsa`: ECDSA on secp256k1

Keys are points in the encodings of SEC 1; signatures are the two numbers `r` and `s` in 64
bytes. Of the two values of `s` that fit a message only the lower one is accepted, so that a
signature cannot be changed into another one for the same message.
-/

set_option autoImplicit false

namespace Countersign.Curve

/-- The point that a public key encodes: with both coordinates (tag 4), with one and the parity
of the other (tags 2 and 3), or with one, the other being even (tag 5). -/
def decodeKey? : Bytes → Option Point
  | [] => none
  | tag :: rest =>
    if rest.length = 32 then
      if tag = 2 ∨ tag = 5 then liftX? (Bytes.toNatBE rest) false
      else if tag = 3 then liftX? (Bytes.toNatBE rest) true
      else none
    else if rest.length = 64 ∧ tag = 4 then
      let x := Bytes.toNatBE (rest.take 32)
      let y := Bytes.toNatBE (rest.drop 32)
      if x < fieldPrime ∧ y < fieldPrime ∧ mulF y y = cubic x then some (Point.ofAffine x y)
      else none
    else none

/-- A signature. -/
structure Signature where
  r : Nat
  s : Nat
  deriving DecidableEq, Repr

/-- The signature that 64 bytes encode. Both numbers are at least 1 and below the order. -/
def Signature.decode? (bs : Bytes) : Option Signature :=
  if bs.length = 64 then
    let r := Bytes.toNatBE (bs.take 32)
    let s := Bytes.toNatBE (bs.drop 32)
    if 0 < r ∧ r < groupOrder ∧ 0 < s ∧ s < groupOrder then some ⟨r, s⟩ else none
  else none

/-- The 64 bytes of a signature. -/
def Signature.encode (sig : Signature) : Bytes :=
  Bytes.ofNatBE 32 sig.r ++ Bytes.ofNatBE 32 sig.s

/-- The number that a message digest stands for: its first 32 bytes. A digest of less than 16
bytes stands for none. -/
def messageNumber? (digest : Bytes) : Option Nat :=
  if digest.length < 16 then none else some (Bytes.toNatBE (digest.take 32) % groupOrder)

/-- Whether the key signed the message. -/
def Signature.fits (sig : Signature) (key : Point) (message : Nat) : Bool :=
  if groupOrder / 2 < sig.s then false
  else
    let w := Modular.inv groupOrder sig.s
    let sum := Point.combine (Modular.mul groupOrder message w) Point.generator
      (Modular.mul groupOrder sig.r w) key
    match sum.toAffine? with
    | none => false
    | some (x, _) => x % groupOrder == sig.r

/-- Checks a signature: first the key is read, then the signature, then they are matched. -/
def verify (publicKey digest signature : Bytes) : Except SignatureError Unit :=
  match decodeKey? publicKey with
  | none => .error (.malformedKey "signature error")
  | some key =>
    match Signature.decode? signature with
    | none => .error (.malformedSignature "signature error")
    | some sig =>
      match messageNumber? digest with
      | none => .error .mismatch
      | some message => if sig.fits key message then .ok () else .error .mismatch

end Countersign.Curve

namespace Countersign

/-- ECDSA on secp256k1. -/
def SignatureScheme.secp256k1 : SignatureScheme :=
  ⟨Curve.verify⟩

end Countersign
