import Countersign.Bytes.Basic

/-!
# `Countersign.Signature.Scheme`: what it takes to check a signature

A scheme answers, for a public key, a message digest and a signature, whether the key signed the
digest. Everything that asks about signatures takes the scheme as an argument, so that what is
said about scripts holds whatever the scheme is.
-/

set_option autoImplicit false

namespace Countersign

/-- Why a scheme does not accept a signature. -/
inductive SignatureError where
  /-- The key is not a key of the scheme. -/
  | malformedKey (reason : String)
  /-- The signature is not a signature of the scheme. -/
  | malformedSignature (reason : String)
  /-- Key and signature are well-formed, but the key did not sign the digest. -/
  | mismatch
  deriving DecidableEq, Repr

/-- The cause as a message. -/
def SignatureError.message : SignatureError → String
  | .malformedKey reason => "malformed public key: " ++ reason
  | .malformedSignature reason => "malformed signature: " ++ reason
  | .mismatch => "signature does not match the message hash"

/-- A way of checking signatures. -/
structure SignatureScheme where
  verify : (publicKey digest signature : Bytes) → Except SignatureError Unit

/-- Whether the scheme accepts a signature, the cause left aside. -/
def SignatureScheme.accepts (scheme : SignatureScheme) (publicKey digest signature : Bytes) : Bool :=
  (scheme.verify publicKey digest signature).isOk

end Countersign
