import Countersign.Digest.Sha256

/-!
# `Countersign.Digest.Hmac`: keyed digests

HMAC with SHA-256, for keys of at most one block.
-/

set_option autoImplicit false

namespace Countersign.Hmac

/-- The key, filled up with zeros to a block and with some bits of every byte turned over. -/
def block (key : Bytes) (mask : UInt8) : Bytes :=
  (key ++ List.replicate (64 - key.length) 0).map (· ^^^ mask)

/-- The digest of a message under a key. -/
def digest (key message : Bytes) : Bytes :=
  Sha256.digest (block key 0x5c ++ Sha256.digest (block key 0x36 ++ message))

end Countersign.Hmac
