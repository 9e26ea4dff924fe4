import Countersign.Bytes.Hex
import Countersign.Decimal.Natural

/-!
# `Countersign.Machine.Fault`: why a run stopped early
-/

set_option autoImplicit false

namespace Countersign

/-- Why a run stopped before the end of its segments. -/
inductive Fault where
  /-- All steps are used up. -/
  | stepLimit (limit : Nat)
  /-- The stack is full. -/
  | stackOverflow (limit : Nat)
  /-- An instruction takes more items than there are. -/
  | stackUnderflow (op : UInt8)
  /-- An item has too many bytes. -/
  | itemTooLarge (length limit : Nat)
  /-- The operand that starts at this offset runs past the end of the segment. -/
  | truncatedPush (offset : Nat)
  /-- A parameter segment may only push. -/
  | nonPushParameter (op : UInt8)
  /-- No operation has this opcode. -/
  | unknownOpcode (op : UInt8)
  /-- A multiple check names no key, or more keys than the limit. -/
  | invalidKeyCount (n : Int) (limit : Nat)
  /-- A multiple check asks for no signature, or for more signatures than keys. -/
  | invalidThreshold (m n : Int)
  deriving DecidableEq, Repr

/-- An opcode as two digits after `0x`. -/
def opcodeText (op : UInt8) : String :=
  "0x" ++ Hex.encode [op]

/-- The cause as a message. -/
def Fault.message : Fault → String
  | .stepLimit limit => "step budget of " ++ Decimal.ofNat limit ++ " exhausted"
  | .stackOverflow limit => "evaluation stack exceeded " ++ Decimal.ofNat limit ++ " items"
  | .stackUnderflow op =>
    "opcode " ++ opcodeText op ++ " needs more stack items than are present"
  | .itemTooLarge length limit =>
    "pushed item of " ++ Decimal.ofNat length ++ " bytes exceeds " ++ Decimal.ofNat limit
  | .truncatedPush offset =>
    "push at offset " ++ Decimal.ofNat offset ++ " runs past the end of the segment"
  | .nonPushParameter op => "opcode " ++ opcodeText op ++ " is not allowed in a parameter segment"
  | .unknownOpcode op => "unknown opcode " ++ opcodeText op
  | .invalidKeyCount n limit =>
    "CHECKMULTISIG key count " ++ Decimal.ofInt n ++ " outside 1..=" ++ Decimal.ofNat limit
  | .invalidThreshold m n =>
    "CHECKMULTISIG threshold " ++ Decimal.ofInt m ++ " outside 1..=" ++ Decimal.ofInt n

end Countersign
