import Countersign.Curve.Signing

/-!
# `Countersign.Showcase.Cast`: who takes part in the scenarios

The scenarios need no more of a signer than a public key and a way to sign digests. The cast that
is used has secrets that are one byte, thirty-two times over.
-/

set_option autoImplicit false

namespace Countersign.Showcase

/-- Somebody who signs. -/
structure Signer where
  publicKey : Bytes
  /-- The signature for the digest of a message. -/
  sign : Bytes → Bytes

/-- Those who take part. -/
structure Cast where
  alice : Signer
  bob : Signer
  carol : Signer
  /-- The one who has no right to sign. -/
  mallory : Signer

/-- The signer with a secret of one byte, thirty-two times over. -/
def Signer.ofSeed (seed : UInt8) : Signer :=
  let secret : Curve.SecretKey := ⟨List.replicate 32 seed⟩
  { publicKey := secret.publicKey?.getD []
    sign := fun digest => (secret.sign? digest).getD [] }

/-- The cast that is used. -/
def Cast.standard : Cast where
  alice := Signer.ofSeed 1
  bob := Signer.ofSeed 2
  carol := Signer.ofSeed 3
  mallory := Signer.ofSeed 9

end Countersign.Showcase
