import Countersign.Script.Template

/-!
# `Countersign.Script.Writer`: scripts that are being written

A script is written from its beginning to its end. A writer puts bytes behind those that are there
already, and what it has written stays, also if it fails later.

A push is written field by field, its opcode and length first. So an item that no instruction
carries has to be refused before anything of it is written.
-/

set_option autoImplicit false

namespace Countersign

/-- Something that writes behind the bytes of a script. -/
abbrev Writer := EStateM TemplateError Bytes

namespace Writer

/-- Writes bytes as they are. -/
def bytes (bs : Bytes) : Writer Unit :=
  modify (· ++ bs)

/-- Writes what stands before an item of this length in the instruction that pushes it. -/
def header (length : Nat) : Writer Unit :=
  if length ≤ 75 then bytes [UInt8.ofNat length]
  else if length ≤ 255 then bytes [Opcode.pushCounted, UInt8.ofNat length]
  else if length ≤ 65535 then bytes (Opcode.pushCountedWide :: Bytes.ofNatLE 2 length)
  else throw (.itemTooLarge length)

/-- Writes the shortest instruction that carries the length of an item. -/
def item (item : Bytes) : Writer Unit := do
  header item.length
  bytes item

/-- Writes the instruction that pushes a number that is not negative. -/
def number (n : UInt64) : Writer Unit :=
  bytes (Template.pushNumber n)

/-- Writes the pushes of several items, one after the other. -/
def items : List Bytes → Writer Unit
  | [] => pure ()
  | first :: others => do
    item first
    items others

/-- What is written onto an empty script. A script that could not be finished is thrown away. -/
def script (w : Writer Unit) : Except TemplateError Bytes :=
  match w [] with
  | .ok _ script => .ok script
  | .error e _ => .error e

end Writer

end Countersign
