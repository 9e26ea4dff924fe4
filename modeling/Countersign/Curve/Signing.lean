import Countersign.Curve.Ecdsa
import Countersign.Digest.Hmac

/-!
# `Countersign.Curve.Signing`: making keys and signatures

The number that each signature needs and nobody may guess is derived from the secret and the
message (RFC 6979), so the same message is always given the same signature.
-/

set_option autoImplicit false

namespace Countersign.Curve

/-- The state of the generator of nonces. -/
structure Drbg where
  key : Bytes
  value : Bytes

namespace Drbg

/-- Mixes bytes into the state. -/
def mix (d : Drbg) (seed : Bytes) : Drbg :=
  let key := Hmac.digest d.key (d.value ++ seed)
  ⟨key, Hmac.digest key d.value⟩

/-- The state for a secret and a message digest, both of 32 bytes. -/
def start (secret digest : Bytes) : Drbg :=
  let d : Drbg := ⟨List.replicate 32 0, List.replicate 32 1⟩
  (d.mix (0 :: (secret ++ digest))).mix (1 :: (secret ++ digest))

/-- The first value that is at least 1 and below the order. Values that are not are as rare as
one in 2¹²⁸, so `tries` need not be many. -/
def nonce? : (tries : Nat) → Drbg → Option Nat
  | 0, _ => none
  | tries + 1, d =>
    -- A value that is no nonce is not used for anything but to move the state on.
    let value := Hmac.digest d.key d.value
    let k := Bytes.toNatBE value
    if 0 < k ∧ k < groupOrder then some k else nonce? tries ((Drbg.mk d.key value).mix [0])

end Drbg

/-- A secret, as 32 bytes. -/
structure SecretKey where
  bytes : Bytes
  deriving DecidableEq, Repr

namespace SecretKey

/-- The number that a secret stands for. -/
def scalar (key : SecretKey) : Nat :=
  Bytes.toNatBE key.bytes

/-- The public key, as one coordinate and the parity of the other. -/
def publicKey? (key : SecretKey) : Option Bytes :=
  (Point.scale key.scalar Point.generator).toAffine?.map fun (x, y) =>
    (if y % 2 = 1 then 3 else 2) :: Bytes.ofNatBE 32 x

/-- The signature for a message digest of 32 bytes, with the lower of the two values of `s`. -/
def sign? (key : SecretKey) (digest : Bytes) : Option Bytes := do
  let k ← Drbg.nonce? 64 (Drbg.start key.bytes digest)
  let (x, _) ← (Point.scale k Point.generator).toAffine?
  let message ← messageNumber? digest
  let r := x % groupOrder
  let s := Modular.mul groupOrder (Modular.inv groupOrder k)
    (Modular.add groupOrder message (Modular.mul groupOrder r key.scalar))
  -- No such signature is known. It would be refused, as both numbers have to be above zero.
  if r = 0 ∨ s = 0 then none
  else
    let low := if groupOrder / 2 < s then groupOrder - s else s
    some (Signature.encode ⟨r, low⟩)

end SecretKey

end Countersign.Curve
