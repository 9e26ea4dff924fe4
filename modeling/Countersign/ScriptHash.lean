import Countersign.Bytes.Hex
import Countersign.Digest.Sha256
import Countersign.Digest.Ripemd160

/-!
# `Countersign.ScriptHash`: the hash that stands for a script

A signer names the script that guards an account by a twenty-byte hash: RIPEMD-160 of SHA-256 of
the script. The hash is written as forty hexadecimal digits, and hashes are ordered as their byte
strings are.
-/

set_option autoImplicit false

namespace Countersign

/-- Twenty bytes that stand for a script. -/
structure ScriptHash where
  bytes : Bytes
  length_bytes : bytes.length = 20
  deriving DecidableEq

namespace ScriptHash

/-- The hash of a script. -/
def ofScript (script : Bytes) : ScriptHash :=
  ⟨Ripemd160.digest (Sha256.digest script), Ripemd160.length_digest _⟩

/-- The hash with these bytes, if there are twenty of them. -/
def ofBytes? (bs : Bytes) : Option ScriptHash :=
  if h : bs.length = 20 then some ⟨bs, h⟩ else none

/-- The hash whose bytes are all zero, which stands for no script. -/
def zero : ScriptHash :=
  ⟨List.replicate 20 0, by simp⟩

/-- Forty digits, with small letters. -/
def toHex (h : ScriptHash) : String :=
  Hex.encode h.bytes

/-- Why a text is no script hash. -/
inductive Malformed where
  /-- The text is not hexadecimal. -/
  | hex (cause : Hex.Malformed)
  /-- The text has digits for another number of bytes. -/
  | length (bytes : Nat)
  deriving DecidableEq, Repr

/-- Reads hexadecimal text. Its digits are looked at before their number is. -/
def parse (text : String) : Except Malformed ScriptHash :=
  match Hex.decode text.toUTF8.toList with
  | .error cause => .error (.hex cause)
  | .ok bs =>
    match ofBytes? bs with
    | none => .error (.length bs.length)
    | some h => .ok h

/-- Hashes stand in the order of their bytes, the first of them counting most. -/
instance : LT ScriptHash := ⟨fun a b => a.bytes < b.bytes⟩

instance (a b : ScriptHash) : Decidable (a < b) :=
  inferInstanceAs (Decidable (a.bytes < b.bytes))

/-- Puts a hash into an ascending list, unless it is there already. -/
def insertInto (h : ScriptHash) : List ScriptHash → List ScriptHash
  | [] => [h]
  | k :: ks => if h = k then k :: ks else if h < k then h :: k :: ks else k :: insertInto h ks

/-- The hashes of a list in ascending order, each once. -/
def sorted (hs : List ScriptHash) : List ScriptHash :=
  hs.foldr insertInto []

end ScriptHash

end Countersign
