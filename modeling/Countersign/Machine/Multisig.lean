import Countersign.Machine.Bench
import Countersign.Script.Number
import Countersign.Script.Operation

/-!
# `Countersign.Machine.Multisig`: checking several signatures against several keys

The keys are tried in order, each once, against the first signature that has no key yet. `spare`
is how many more keys than signatures are left: a key that does not fit uses one up, and when
none is left the signatures cannot all be matched any more, so no further key is tried.
-/

set_option autoImplicit false

namespace Countersign.Act

/-- Whether all signatures match keys, in order. There are `spare` more keys than signatures. -/
def matchKeys (scheme : SignatureScheme) (digest : Bytes) :
    (spare : Nat) → (publicKeys signatures : List Bytes) → Act Bool
  | _, _, [] => pure true
  | _, [], _ :: _ => pure false
  | spare, publicKey :: publicKeys, signature :: signatures => do
    if ← ask scheme publicKey digest signature then
      matchKeys scheme digest spare publicKeys signatures
    else
      -- Without a key to spare the signatures that are left cannot all find theirs, so no further
      -- key is asked about.
      match spare with
      | 0 => pure false
      | spare + 1 => matchKeys scheme digest spare publicKeys (signature :: signatures)

/-- Takes a number off the stack, for a multiple check. -/
def popNumber : Act Int := do
  let item ← pop Opcode.checkMultisig
  return Number.decode item

/-- Takes the number of keys, the keys, the number of signatures and the signatures off the
stack, and says whether the signatures match. -/
def checkMultisig (setting : Setting) : Act Bool := do
  let limit := setting.limits.maxMultisigKeys.toNat
  let n ← popNumber
  if n < 1 ∨ limit < n.toNat then
    throw (.invalidKeyCount n limit)
  -- The number was compared before anything is taken, so it cannot be negative here.
  let publicKeys ← popMany Opcode.checkMultisig n.toNat []
  let m ← popNumber
  if m < 1 ∨ n < m then
    throw (.invalidThreshold m n)
  let signatures ← popMany Opcode.checkMultisig m.toNat []
  let digest ← messageDigest setting.body
  matchKeys setting.scheme digest (n.toNat - m.toNat) publicKeys signatures

end Countersign.Act
