import Countersign.Proofs.Bytes.LittleEndian
import Countersign.Script.Operation

/-!
# `Countersign.Proofs.Script.Push`: complete push instructions

`PushInstruction code item` says that the bytes `code` are one complete instruction and that what
it pushes is `item`. One item has several instructions: a short one may be pushed with its length
in the opcode, in one byte or in two. `Pushes script items` says that a script is a row of such
instructions. Both are stated on bytes alone, without the machine.

`TruncatedPush op following place` is the other thing that a push opcode can stand in front of: an
operand that is cut off. `place` is how many bytes after the opcode the field begins that is cut
off. `push_or_truncated`: there is no third case.
-/

set_option autoImplicit false

namespace Countersign

/-- The bytes of one complete instruction, and the item that it pushes. -/
inductive PushInstruction : (code item : Bytes) → Prop
  | empty : PushInstruction [Opcode.pushEmpty] []
  | bytes {item : Bytes} : 0 < item.length → item.length ≤ 75 →
      PushInstruction (UInt8.ofNat item.length :: item) item
  | counted {item : Bytes} : item.length ≤ 255 →
      PushInstruction (Opcode.pushCounted :: UInt8.ofNat item.length :: item) item
  | countedWide {item : Bytes} : item.length ≤ 65535 →
      PushInstruction (Opcode.pushCountedWide :: (Bytes.ofNatLE 2 item.length ++ item)) item
  | minusOne : PushInstruction [Opcode.pushMinusOne] [0x81]
  | number {n : Nat} : 0 < n → n ≤ 16 → PushInstruction [UInt8.ofNat (0x50 + n)] [UInt8.ofNat n]

/-- A script that is a row of complete push instructions, and the items that it pushes, the first
one first. -/
inductive Pushes : (script : Bytes) → (items : List Bytes) → Prop
  | nil : Pushes [] []
  | cons {code item script : Bytes} {items : List Bytes} :
      PushInstruction code item → Pushes script items → Pushes (code ++ script) (item :: items)

/-- The operand of `op` is cut off: what follows is too short for the field that begins `place`
bytes after the opcode. -/
inductive TruncatedPush : (op : UInt8) → (following : Bytes) → (place : Nat) → Prop
  | bytes {op : UInt8} {following : Bytes} : 0 < op.toNat → op.toNat ≤ 75 →
      following.length < op.toNat → TruncatedPush op following 1
  | count : TruncatedPush Opcode.pushCounted [] 1
  | counted {length : UInt8} {rest : Bytes} : rest.length < length.toNat →
      TruncatedPush Opcode.pushCounted (length :: rest) 2
  | wideCount {following : Bytes} : following.length < 2 →
      TruncatedPush Opcode.pushCountedWide following 1
  | countedWide {low high : UInt8} {rest : Bytes} :
      rest.length < low.toNat + 256 * high.toNat →
      TruncatedPush Opcode.pushCountedWide (low :: high :: rest) 3

/-! ### The opcodes that push -/

/-- The opcodes that a parameter may hold, by what they push. -/
theorem isPush_iff {op : UInt8} :
    isPush op = true ↔
      op = Opcode.pushEmpty ∨ (0 < op.toNat ∧ op.toNat ≤ 75) ∨ op = Opcode.pushCounted ∨
      op = Opcode.pushCountedWide ∨ op = Opcode.pushMinusOne ∨
      (0x51 ≤ op.toNat ∧ op.toNat ≤ 0x60) := by
  simp only [isPush, Opcode.pushEmpty, Opcode.pushCounted, Opcode.pushCountedWide,
    Opcode.pushMinusOne, Bool.or_eq_true, Bool.and_eq_true, decide_eq_true_eq, beq_iff_eq,
    UInt8.le_iff_toNat_le, ← UInt8.toNat_inj, UInt8.reduceToNat]
  omega

/-- What the opcodes ask for that do not push what a script spells out. -/
theorem isPush_eq_false_iff {op : UInt8} :
    isPush op = false ↔ Operation.ofByte op ∈
      [.nop, .drop, .dup, .checkSignature, .checkMultisig, .unknown] :=
  Bytes.forall_byte (by decide +kernel) op

/-- What the opcodes with their length in themselves ask for. -/
theorem ofByte_of_le {op : UInt8} (hpos : 0 < op.toNat) (hle : op.toNat ≤ 75) :
    Operation.ofByte op = .pushBytes op.toNat := by
  have hempty : op ≠ Opcode.pushEmpty := by
    rintro rfl
    exact absurd hpos (by decide)
  have hmax : op ≤ Opcode.pushBytesMax := UInt8.le_iff_toNat_le.mpr hle
  rw [Operation.ofByte, if_neg hempty, if_pos hmax]

/-- What the opcodes ask for that name a small number. -/
theorem ofByte_number {n : Nat} (hpos : 0 < n) (hle : n ≤ 16) :
    Operation.ofByte (UInt8.ofNat (0x50 + n)) = .pushNumber n := by
  have key : ∀ n : Nat, n < 17 → 0 < n →
      Operation.ofByte (UInt8.ofNat (0x50 + n)) = .pushNumber n := by
    decide
  exact key n (by omega) hpos

/-! ### Rows of instructions -/

/-- Two rows of pushes, one behind the other, are a row of pushes. -/
theorem Pushes.append {script script' : Bytes} {items items' : List Bytes}
    (h : Pushes script items) (h' : Pushes script' items') :
    Pushes (script ++ script') (items ++ items') := by
  induction h with
  | nil => exact h'
  | cons hcode _ ih =>
      rw [List.append_assoc]
      exact .cons hcode ih

/-- A single push is a row of pushes. -/
theorem PushInstruction.pushes {code item : Bytes} (h : PushInstruction code item) :
    Pushes code [item] := by
  rw [← List.append_nil code]
  exact .cons h .nil

/-- A push has an opcode. -/
theorem PushInstruction.exists_cons {code item : Bytes} (h : PushInstruction code item) :
    ∃ op operand, code = op :: operand := by
  cases h <;> exact ⟨_, _, rfl⟩

/-- No push instruction carries more bytes than two bytes can count. -/
theorem PushInstruction.length_le {code item : Bytes} (h : PushInstruction code item) :
    item.length ≤ 65535 := by
  cases h with
  | empty | minusOne | number _ _ => simp
  | bytes _ hle | counted hle => omega
  | countedWide hle => exact hle

/-- A script that pushes something is not empty. -/
theorem Pushes.ne_nil {script : Bytes} {items : List Bytes} (h : Pushes script items)
    (hitems : items ≠ []) : script ≠ [] := by
  cases h with
  | nil => exact absurd rfl hitems
  | cons hcode _ =>
      obtain ⟨op, operand, rfl⟩ := hcode.exists_cons
      exact List.cons_ne_nil _ _

/-- The first byte of a push instruction is an opcode that pushes. -/
theorem PushInstruction.isPush {op : UInt8} {operand item : Bytes}
    (h : PushInstruction (op :: operand) item) : isPush op = true := by
  rw [isPush_iff]
  cases h with
  | empty => exact .inl rfl
  | bytes hpos hle =>
      have hop : (UInt8.ofNat operand.length).toNat = operand.length :=
        UInt8.toNat_ofNat_of_lt' (show operand.length < 256 from by omega)
      exact .inr (.inl ⟨by omega, by omega⟩)
  | counted _ => exact .inr (.inr (.inl rfl))
  | countedWide _ => exact .inr (.inr (.inr (.inl rfl)))
  | minusOne => exact .inr (.inr (.inr (.inr (.inl rfl))))
  | @number n hpos hle =>
      have hop : (UInt8.ofNat (0x50 + n)).toNat = 0x50 + n :=
        UInt8.toNat_ofNat_of_lt' (show 0x50 + n < 256 from by omega)
      exact .inr (.inr (.inr (.inr (.inr ⟨by omega, by omega⟩))))

/-- What is cut off is a push. -/
theorem TruncatedPush.isPush {op : UInt8} {following : Bytes} {place : Nat}
    (h : TruncatedPush op following place) : isPush op = true := by
  rw [isPush_iff]
  cases h with
  | bytes hpos hle _ => exact .inr (.inl ⟨hpos, hle⟩)
  | count | counted _ => exact .inr (.inr (.inl rfl))
  | wideCount _ | countedWide _ => exact .inr (.inr (.inr (.inl rfl)))

/-- Two bytes are what is written for the number that they write. -/
private theorem ofNatLE_two (low high : UInt8) :
    Bytes.ofNatLE 2 (low.toNat + 256 * high.toNat) = [low, high] := by
  have hlow := low.toNat_lt
  have hhigh := high.toNat_lt
  have hfirst : UInt8.ofNat (low.toNat + 256 * high.toNat) = low := by
    rw [← UInt8.toNat_inj, UInt8.toNat_ofNat']
    omega
  have hsecond : UInt8.ofNat ((low.toNat + 256 * high.toNat) / 256) = high := by
    rw [← UInt8.toNat_inj, UInt8.toNat_ofNat']
    omega
  rw [Bytes.ofNatLE, Bytes.ofNatLE, Bytes.ofNatLE, hfirst, hsecond]

/-- Behind an opcode that pushes stands its whole operand, or an operand that is cut off. -/
theorem push_or_truncated {op : UInt8} (h : isPush op = true) (following : Bytes) :
    (∃ operand rest item, following = operand ++ rest ∧ PushInstruction (op :: operand) item) ∨
      ∃ place, TruncatedPush op following place := by
  -- Only the opcodes with an operand have bytes that can be missing.
  rcases isPush_iff.mp h with rfl | ⟨hpos, hle⟩ | rfl | rfl | rfl | ⟨hlow, hhigh⟩
  · exact .inl ⟨[], following, [], rfl, .empty⟩
  · cases Nat.lt_or_ge following.length op.toNat with
    | inl hlt => exact .inr ⟨1, .bytes hpos hle hlt⟩
    | inr hge =>
        -- The length of the item is the opcode itself.
        obtain ⟨item, rest, rfl, hlength⟩ := exists_append_of_le hge
        have hcode : PushInstruction (UInt8.ofNat item.length :: item) item :=
          .bytes (by omega) (by omega)
        rw [hlength, UInt8.ofNat_toNat] at hcode
        exact .inl ⟨item, rest, item, rfl, hcode⟩
  · cases following with
    | nil => exact .inr ⟨1, .count⟩
    | cons length following =>
        cases Nat.lt_or_ge following.length length.toNat with
        | inl hlt => exact .inr ⟨2, .counted hlt⟩
        | inr hge =>
            obtain ⟨item, rest, rfl, hlength⟩ := exists_append_of_le hge
            have hbyte := length.toNat_lt
            have hcode : PushInstruction
                (Opcode.pushCounted :: UInt8.ofNat item.length :: item) item :=
              .counted (by omega)
            rw [hlength, UInt8.ofNat_toNat] at hcode
            exact .inl ⟨length :: item, rest, item, rfl, hcode⟩
  · match following with
    | [] => exact .inr ⟨1, .wideCount (by simp)⟩
    | [_] => exact .inr ⟨1, .wideCount (by simp)⟩
    | low :: high :: following =>
        cases Nat.lt_or_ge following.length (low.toNat + 256 * high.toNat) with
        | inl hlt => exact .inr ⟨3, .countedWide hlt⟩
        | inr hge =>
            obtain ⟨item, rest, rfl, hlength⟩ := exists_append_of_le hge
            have hlow := low.toNat_lt
            have hhigh := high.toNat_lt
            have hcode : PushInstruction
                (Opcode.pushCountedWide :: (Bytes.ofNatLE 2 item.length ++ item)) item :=
              .countedWide (by omega)
            rw [hlength, ofNatLE_two] at hcode
            exact .inl ⟨low :: high :: item, rest, item, rfl, hcode⟩
  · exact .inl ⟨[], following, [0x81], rfl, .minusOne⟩
  · have hcode : PushInstruction [UInt8.ofNat (0x50 + (op.toNat - 0x50))] [_] :=
      .number (by omega) (by omega)
    rw [show 0x50 + (op.toNat - 0x50) = op.toNat from by omega, UInt8.ofNat_toNat] at hcode
    exact .inl ⟨[], following, _, rfl, hcode⟩

end Countersign
