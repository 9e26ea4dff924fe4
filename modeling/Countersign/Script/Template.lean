import Countersign.Script.Operation
import Countersign.Decimal.Natural

/-!
# `Countersign.Script.Template`: the scripts of the standard accounts

An account with one key is guarded by `key CHECKSIG`, an account with several by
`m key₁ … keyₙ n CHECKMULTISIG`. A parameter pushes the signatures in the order of the keys.
Every item is pushed by the shortest instruction that carries its length.
-/

set_option autoImplicit false

namespace Countersign

/-- Why a script cannot be written. -/
inductive TemplateError where
  /-- No push instruction carries an item of this length. -/
  | itemTooLarge (length : Nat)
  /-- No set of signatures could meet the threshold. -/
  | unsatisfiable (threshold keys : Nat)
  deriving DecidableEq, Repr

/-- The cause as a message. -/
def TemplateError.message : TemplateError → String
  | .itemTooLarge length =>
    "item of " ++ Decimal.ofNat length ++ " bytes cannot be pushed (limit 65535)"
  | .unsatisfiable threshold keys =>
    "threshold " ++ Decimal.ofNat threshold ++ " of " ++ Decimal.ofNat keys
      ++ " keys is not satisfiable"

namespace Template

/-- The instruction that pushes an item. -/
def pushItem (item : Bytes) : Except TemplateError Bytes :=
  let length := item.length
  if length ≤ 75 then .ok (UInt8.ofNat length :: item)
  else if length ≤ 255 then .ok (Opcode.pushCounted :: UInt8.ofNat length :: item)
  else if length ≤ 65535 then .ok (Opcode.pushCountedWide :: (Bytes.ofNatLE 2 length ++ item))
  else .error (.itemTooLarge length)

/-- The bytes of a number, least significant first, with the top bit of the last one clear. -/
def positiveItem (n : UInt64) : Bytes :=
  let bytes := ((Bytes.ofNatLE 8 n.toNat).reverse.dropWhile (· == 0)).reverse
  match bytes.getLast? with
  | some last => if 0x80 ≤ last then bytes ++ [0] else bytes
  | none => bytes

/-- The instruction that pushes a number that is not negative. -/
def pushNumber (n : UInt64) : Bytes :=
  if n = 0 then [Opcode.pushEmpty]
  else if n ≤ 16 then [Opcode.pushOne + (n.toUInt8 - 1)]
  else
    let item := positiveItem n
    UInt8.ofNat item.length :: item

/-- The instructions that push several items, one after the other. -/
def pushItems : List Bytes → Except TemplateError Bytes
  | [] => .ok []
  | item :: items => do
    let first ← pushItem item
    let rest ← pushItems items
    return first ++ rest

/-- The script that asks for a signature by one key. -/
def singleKey (publicKey : Bytes) : Except TemplateError Bytes := do
  let push ← pushItem publicKey
  return push ++ [Opcode.checkSignature]

/-- The script that asks for signatures by `threshold` of the keys. A threshold that cannot be
met is refused before any key is looked at. -/
def multiKey (threshold : Nat) (publicKeys : List Bytes) : Except TemplateError Bytes :=
  if threshold = 0 ∨ publicKeys.length < threshold then
    .error (.unsatisfiable threshold publicKeys.length)
  else do
    let keys ← pushItems publicKeys
    return pushNumber (UInt64.ofNat threshold) ++ keys
      ++ pushNumber (UInt64.ofNat publicKeys.length) ++ [Opcode.checkMultisig]

/-- The parameter that hands over signatures. -/
def signatures (sigs : List Bytes) : Except TemplateError Bytes :=
  pushItems sigs

end Template

end Countersign
