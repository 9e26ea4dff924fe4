import Countersign.Proofs.Machine.ReadingBack

/-!
# `Countersign.Proofs.Machine.Shortest`: no parameter pushes an item in fewer bytes

An item is written by the shortest instruction that carries its length. Whether this is also the
shortest way to put the item on a stack is a question about all parameters. `LeavesAlone` is what is
asked of a parameter that is to compete: it runs to its end on an empty stack, under some limits,
and leaves the item there with nothing else.

A parameter can only push, and what it has pushed is never taken away. So the competitors are the
instructions that push the item, and no others (`leavesAlone_iff`), and it is their forms that have
to be compared (`Template.length_lt_pushItem_iff`).

`Writer.item_shortest` is the outcome. What is written for an item is as short as any parameter,
unless the item is one of the 17 numbers that have an opcode of their own (`NumberOpcode`). The
writer of items does not look for these.
-/

set_option autoImplicit false

namespace Countersign

open Act

/-! ### Parameters that push one item -/

/-- Run as a parameter on an empty stack, the script comes to its end and leaves the item alone on
it. -/
def LeavesAlone (script item : Bytes) : Prop :=
  ∃ setting b b', b.stack.items = [] ∧
    runSegment setting ⟨script, .parameter⟩ b = .ok () b' ∧ b'.stack.items = [item]

/-- A parameter that runs to its end is a row of push instructions, and has pushed its items. -/
theorem Act.pushes_of_runSegment {setting : Setting} {script : Bytes} {b b' : Bench}
    (h : runSegment setting ⟨script, .parameter⟩ b = .ok () b') :
    ∃ items, Pushes script items ∧ b' = b.pushed items := by
  obtain ⟨items, hpushes⟩ : ∃ items, Pushes script items := by
    by_contra hnone
    obtain ⟨fault, b'', hfault⟩ := runFrom_parameter_faults hnone setting 0 b
    cases hfault.symm.trans h
  refine ⟨items, hpushes, ?_⟩
  rw [runSegment_pushes hpushes] at h
  cases items with
  | nil =>
      cases h
      rw [Bench.pushed_nil]
  | cons item items =>
      by_cases hroom : HasRoom setting.limits b (item :: items)
      · rw [pushAll_of_hasRoom hroom] at h
        cases h
        rfl
      · obtain ⟨fault, b'', hfault⟩ := pushAll_faults (List.cons_ne_nil item items) hroom
        cases hfault.symm.trans h

/-- What leaves a single item is a single instruction. -/
theorem leavesAlone_iff {script item : Bytes} :
    LeavesAlone script item ↔ PushInstruction script item := by
  constructor
  · rintro ⟨setting, b, b', hempty, hrun, hitems⟩
    obtain ⟨items, hpushes, rfl⟩ := pushes_of_runSegment hrun
    -- The stack was empty and nothing is taken off it, so there was one push.
    rw [Bench.items_pushed, hempty, List.append_nil, List.reverse_eq_iff] at hitems
    subst hitems
    cases hpushes with
    | cons hcode hnone =>
        cases hnone
        rwa [List.append_nil]
  · intro hcode
    let setting : Setting := ⟨Limits.standard, ⟨fun _ _ _ => .ok ()⟩, []⟩
    have hsteps : 0 + 1 ≤ Limits.standard.maxSteps.toNat := by decide
    have hdepth : 0 + 1 ≤ Limits.standard.maxStackSize.toNat := by decide
    have hroom : HasRoom setting.limits Bench.fresh [item] := by
      refine ⟨hsteps, hdepth, ?_⟩
      intro i hi
      obtain rfl := List.mem_singleton.mp hi
      exact hcode.length_le
    refine ⟨setting, Bench.fresh, Bench.fresh.pushed [item], rfl, ?_, rfl⟩
    rw [runSegment_pushes hcode.pushes]
    exact pushAll_of_hasRoom hroom

/-! ### Instructions that push the same item -/

/-- The opcodes that stand for a number, without an operand, and the items of these numbers: -1 and
the numbers from 1 to 16. -/
inductive NumberOpcode : (op : UInt8) → (item : Bytes) → Prop
  | minusOne : NumberOpcode Opcode.pushMinusOne [0x81]
  | number {n : Nat} : 0 < n → n ≤ 16 → NumberOpcode (UInt8.ofNat (0x50 + n)) [UInt8.ofNat n]

/-- An opcode that stands for a number pushes its item. -/
theorem NumberOpcode.pushInstruction {op : UInt8} {item : Bytes} (h : NumberOpcode op item) :
    PushInstruction [op] item := by
  cases h with
  | minusOne => exact .minusOne
  | number hpos hle => exact .number hpos hle

/-- The item of such a number is a single byte. -/
theorem NumberOpcode.length_item {op : UInt8} {item : Bytes} (h : NumberOpcode op item) :
    item.length = 1 := by
  cases h <;> rfl

namespace Template

/-- Before an item stand an opcode and the bytes of its length, if the opcode does not say it. -/
theorem length_pushItem {item code : Bytes} (h : pushItem item = .ok code) :
    item.length ≤ 75 ∧ code.length = item.length + 1 ∨
      75 < item.length ∧ item.length ≤ 255 ∧ code.length = item.length + 2 ∨
      255 < item.length ∧ code.length = item.length + 3 := by
  rw [pushItem] at h
  split at h
  · cases h
    exact .inl ⟨‹_›, rfl⟩
  · split at h
    · cases h
      exact .inr (.inl ⟨by omega, ‹_›, rfl⟩)
    · split at h
      · cases h
        refine .inr (.inr ⟨by omega, ?_⟩)
        rw [List.length_cons, List.length_append, Bytes.length_ofNatLE]
        omega
      · cases h

/-- Only an opcode that stands for a number is shorter than what is written. -/
theorem length_lt_pushItem_iff {item code other : Bytes} (h : pushItem item = .ok code)
    (hother : PushInstruction other item) :
    other.length < code.length ↔ ∃ op, NumberOpcode op item ∧ other = [op] := by
  have hcode := length_pushItem h
  constructor
  · intro hlt
    cases hother with
    | minusOne => exact ⟨_, .minusOne, rfl⟩
    | number hpos hle => exact ⟨_, .number hpos hle, rfl⟩
    -- The other forms say the length too. In the same place it takes as many bytes, and a place
    -- with more room is found behind more bytes.
    | empty =>
        rw [List.length_nil] at hcode
        rw [List.length_singleton] at hlt
        omega
    | bytes _ hle =>
        rw [List.length_cons] at hlt
        omega
    | counted hle =>
        rw [List.length_cons, List.length_cons] at hlt
        omega
    | countedWide _ =>
        rw [List.length_cons, List.length_append, Bytes.length_ofNatLE] at hlt
        omega
  · rintro ⟨op, hop, rfl⟩
    rw [hop.length_item] at hcode
    rw [List.length_singleton]
    omega

end Template

/-- What is written for an item is as short as possible, but for 17 items.

* An item that can be written is left alone on the stack by what is written for it.
* A parameter that leaves it alone is shorter only if it is an opcode that stands for a number. Such
  an opcode does leave its item alone, in one byte where two are written.
* An item that cannot be written is left alone by no parameter. -/
theorem Writer.item_shortest (item : Bytes) :
    (item.length ≤ 65535 → ∃ code,
      (∀ script, Writer.item item script = .ok () (script ++ code)) ∧ LeavesAlone code item ∧
      (∀ parameter, LeavesAlone parameter item →
        (parameter.length < code.length ↔ ∃ op, NumberOpcode op item ∧ parameter = [op])) ∧
      (∀ op, NumberOpcode op item → LeavesAlone [op] item ∧ code.length = 2)) ∧
    (65535 < item.length → ∀ parameter, ¬ LeavesAlone parameter item) := by
  constructor
  · intro hfits
    obtain ⟨code, hcode⟩ := Template.exists_pushItem hfits
    have hpush := Template.pushItem_pushInstruction hcode
    refine ⟨code, Writer.item_of_ok hcode, leavesAlone_iff.mpr hpush, ?_, ?_⟩
    · intro parameter hparameter
      exact Template.length_lt_pushItem_iff hcode (leavesAlone_iff.mp hparameter)
    · intro op hop
      have hlength := Template.length_pushItem hcode
      rw [hop.length_item] at hlength
      exact ⟨leavesAlone_iff.mpr hop.pushInstruction, by omega⟩
  · intro hlarge parameter hparameter
    have hle := (leavesAlone_iff.mp hparameter).length_le
    omega

/-- 16 is written in two bytes, and its opcode would do. The shortest item that has its length in a
byte of its own could have it in two bytes, which is longer than what is written. -/
theorem Writer.item_shortest_last_number :
    let item : Bytes := List.replicate 76 7
    let wide : Bytes := Opcode.pushCountedWide :: (Bytes.ofNatLE 2 76 ++ item)
    (LeavesAlone [0x60] [16] ∧ NumberOpcode 0x60 [16] ∧
      ∃ code, Writer.item [16] [0xAC] = .ok () ([0xAC] ++ code) ∧ LeavesAlone code [16] ∧
        [0x60].length < code.length ∧ code.length = 2) ∧
    (LeavesAlone wide item ∧
      ∃ code, Writer.item item [] = .ok () code ∧ LeavesAlone code item ∧
        code.length ≤ wide.length ∧ wide.length = 79) ∧
    ∀ parameter, ¬ LeavesAlone parameter (List.replicate 65536 0) := by
  intro item wide
  have hnumber : NumberOpcode 0x60 [16] := @NumberOpcode.number 16 (by decide) (by decide)
  have hwide : PushInstruction wide item := @PushInstruction.countedWide item (by decide)
  refine ⟨?_, ?_, ?_⟩
  · obtain ⟨code, hwritten, halone, hshorter, hopcode⟩ := (item_shortest [16]).1 (by decide)
    obtain ⟨hleaves, hlength⟩ := hopcode 0x60 hnumber
    have hlt := (hshorter [0x60] hleaves).mpr ⟨0x60, hnumber, rfl⟩
    exact ⟨hleaves, hnumber, code, hwritten [0xAC], halone, hlt, hlength⟩
  · obtain ⟨code, hwritten, halone, hshorter, -⟩ := (item_shortest item).1 (by decide)
    have hleaves := leavesAlone_iff.mpr hwide
    refine ⟨hleaves, code, hwritten [], halone, Nat.le_of_not_lt ?_, rfl⟩
    intro hlt
    obtain ⟨op, -, hop⟩ := (hshorter wide hleaves).mp hlt
    have hlength : wide.length = 1 := congrArg List.length hop
    exact absurd hlength (by decide)
  · refine (item_shortest _).2 ?_
    rw [List.length_replicate]
    decide

end Countersign
