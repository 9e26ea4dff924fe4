import Countersign.Bytes.Basic

/-!
# `Countersign.Script.Operation`: what the first byte of an instruction asks for

A script is a row of instructions. Each begins with an opcode; the pushes up to `4D` are followed
by operand bytes. `Operation.ofByte` says what an opcode asks for, and `isPush` which opcodes a
parameter segment may hold. The two are stated apart: the first by what is done, the second by
ranges of bytes.
-/

set_option autoImplicit false

namespace Countersign

/-- What an opcode asks for. -/
inductive Operation where
  /-- Push the empty item. -/
  | pushEmpty
  /-- Push the next `count` bytes. -/
  | pushBytes (count : Nat)
  /-- Push as many bytes as the next byte says. -/
  | pushCounted
  /-- Push as many bytes as the next two bytes say, the low one first. -/
  | pushCountedWide
  /-- Push a number that the opcode itself names. -/
  | pushNumber (n : Int)
  /-- Do nothing. -/
  | nop
  /-- Remove the top item. -/
  | drop
  /-- Push the top item again. -/
  | dup
  /-- Replace a signature and a key by whether they match. -/
  | checkSignature
  /-- Replace signatures and keys by whether all signatures match keys in order. -/
  | checkMultisig
  /-- No operation has this opcode. -/
  | unknown
  deriving DecidableEq, Repr

namespace Opcode

/-- Pushes the empty item. -/
def pushEmpty : UInt8 := 0x00
/-- The largest opcode that is itself the number of bytes it pushes. -/
def pushBytesMax : UInt8 := 0x4B
/-- Pushes as many bytes as the next byte says. -/
def pushCounted : UInt8 := 0x4C
/-- Pushes as many bytes as the next two bytes say. -/
def pushCountedWide : UInt8 := 0x4D
/-- Pushes the number -1. -/
def pushMinusOne : UInt8 := 0x4F
/-- Pushes the number 1; the fifteen opcodes after it push 2 to 16. -/
def pushOne : UInt8 := 0x51
/-- Pushes the number 16. -/
def pushSixteen : UInt8 := 0x60
/-- Does nothing. -/
def nop : UInt8 := 0x61
/-- Removes the top item. -/
def drop : UInt8 := 0x75
/-- Pushes the top item again. -/
def dup : UInt8 := 0x76
/-- Checks one signature against one key. -/
def checkSignature : UInt8 := 0xAC
/-- Checks several signatures against several keys. -/
def checkMultisig : UInt8 := 0xAE

end Opcode

/-- What an opcode asks for. -/
def Operation.ofByte (op : UInt8) : Operation :=
  if op = Opcode.pushEmpty then .pushEmpty
  else if op ≤ Opcode.pushBytesMax then .pushBytes op.toNat
  else if op = Opcode.pushCounted then .pushCounted
  else if op = Opcode.pushCountedWide then .pushCountedWide
  else if op = Opcode.pushMinusOne then .pushNumber (-1)
  else if Opcode.pushOne ≤ op ∧ op ≤ Opcode.pushSixteen then
    .pushNumber ((op - Opcode.pushOne).toNat + 1)
  else if op = Opcode.nop then .nop
  else if op = Opcode.drop then .drop
  else if op = Opcode.dup then .dup
  else if op = Opcode.checkSignature then .checkSignature
  else if op = Opcode.checkMultisig then .checkMultisig
  else .unknown

/-- Whether an opcode only pushes, so that a parameter segment may hold it. -/
def isPush (op : UInt8) : Bool :=
  op ≤ 0x4D || op == 0x4F || (0x51 ≤ op && op ≤ 0x60)

end Countersign
