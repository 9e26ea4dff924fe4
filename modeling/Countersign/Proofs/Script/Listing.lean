import Countersign.Proofs.Script.Push

/-!
# `Countersign.Proofs.Script.Listing`: a script as a list of instructions

A machine finds out where an instruction begins by executing the one before it. A `Listing` is the
same script taken apart beforehand: complete instructions, each with the bytes that belong to it,
and a `Tail`, which is nothing or one push that is cut off. Whether a byte is an opcode depends on
where it stands, so the bytes of an operand are not looked at as opcodes, whatever they are.

`Listing.exists_bytes_eq`: every byte string can be taken apart, those included that hold opcodes
which mean nothing. That this is possible in one way only is shown in
`Countersign.Proofs.Machine.Listing`, where there is a reader to show it with.
-/

set_option autoImplicit false

namespace Countersign

/-- A complete instruction. -/
inductive Instruction where
  /-- An opcode that pushes an item, and the operand behind it. -/
  | push (code item : Bytes) (complete : PushInstruction code item)
  /-- Any other byte is an instruction by itself. -/
  | single (op : UInt8) (other : isPush op = false)

/-- The bytes of an instruction. -/
def Instruction.code : Instruction → Bytes
  | push code _ _ => code
  | single op _ => [op]

/-- The bytes of several instructions. -/
def codeOf (instructions : List Instruction) : Bytes :=
  instructions.flatMap Instruction.code

/-- What stands behind the last complete instruction of a script. -/
inductive Tail where
  | nothing
  /-- A push whose operand is cut off. -/
  | cut (op : UInt8) (following : Bytes) (place : Nat) (short : TruncatedPush op following place)

/-- The bytes of what stands behind the last complete instruction. -/
def Tail.bytes : Tail → Bytes
  | nothing => []
  | cut op following _ _ => op :: following

/-- A script taken apart. -/
structure Listing where
  instructions : List Instruction
  tail : Tail

/-- The script that was taken apart. -/
def Listing.bytes (l : Listing) : Bytes :=
  codeOf l.instructions ++ l.tail.bytes

/-! ### Putting the bytes together -/

/-- No instructions have no bytes. -/
@[simp] theorem codeOf_nil : codeOf [] = [] :=
  rfl

/-- The bytes of an instruction come in front of those of the others. -/
@[simp] theorem codeOf_cons (i : Instruction) (instructions : List Instruction) :
    codeOf (i :: instructions) = i.code ++ codeOf instructions :=
  List.flatMap_cons

/-- Every instruction has the byte of its opcode. -/
theorem Instruction.exists_code_eq (i : Instruction) :
    ∃ op operand, i.code = op :: operand := by
  cases i with
  | push code item complete => exact complete.exists_cons
  | single op _ => exact ⟨op, [], rfl⟩

/-- No instruction is empty. -/
theorem Instruction.length_code_pos (i : Instruction) : 0 < i.code.length := by
  obtain ⟨op, operand, h⟩ := i.exists_code_eq
  simp [h]

/-! ### Taking a script apart -/

/-- At the front of a script stands a complete instruction or a push that is cut off. -/
theorem instruction_or_truncated (op : UInt8) (following : Bytes) :
    (∃ (i : Instruction) (rest : Bytes), op :: following = i.code ++ rest) ∨
      ∃ place, TruncatedPush op following place := by
  cases hop : isPush op with
  | false => exact .inl ⟨.single op hop, following, rfl⟩
  | true =>
      rcases push_or_truncated hop following with ⟨operand, rest, item, rfl, hcode⟩ | hshort
      · exact .inl ⟨.push (op :: operand) item hcode, rest, rfl⟩
      · exact .inr hshort

namespace Listing

/-- Every script can be taken apart. -/
theorem exists_bytes_eq (script : Bytes) : ∃ l : Listing, l.bytes = script := by
  -- An instruction has at least one byte, so what stands behind it is shorter.
  induction hn : script.length using Nat.strongRecOn generalizing script with
  | ind n ih =>
      cases script with
      | nil => exact ⟨⟨[], .nothing⟩, rfl⟩
      | cons op following =>
          rcases instruction_or_truncated op following with ⟨i, rest, hscript⟩ | ⟨place, hshort⟩
          · have hlength : rest.length < n := by
              have hpos := i.length_code_pos
              rw [← hn, hscript, List.length_append]
              omega
            obtain ⟨l, hrest⟩ := ih rest.length hlength rest rfl
            refine ⟨⟨i :: l.instructions, l.tail⟩, ?_⟩
            rw [hscript, ← hrest, bytes, codeOf_cons, List.append_assoc, bytes]
          · exact ⟨⟨[], .cut op following place hshort⟩, rfl⟩

end Listing

end Countersign
