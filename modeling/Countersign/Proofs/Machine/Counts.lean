import Countersign.Proofs.Machine.Questions
import Countersign.Proofs.Machine.ReadingBack

/-!
# `Countersign.Proofs.Machine.Counts`: numbers that are written for a check

A check of several signatures finds its two counts on the stack as items. They get there from a
script, and a script has three ways of writing a number. `Writer.number_readBack` says that the
writer and the machine agree on every number of 64 bits: where they write zero, a small number in
its opcode, or the bytes of a number, what comes onto the stack is the item of that number.

The agreement ends where a number needs the top bit of its eight bytes. Its item has nine bytes,
which stand for -1, and `RefusedAsCount` says what a check makes of that: with any limits it faults
before it has asked about a single signature.
-/

set_option autoImplicit false

namespace Countersign

open Act

/-! ### Items that are no counts -/

/-- A check of several signatures takes the item for neither of its counts, whatever the limits are
and whatever else lies on the stack. -/
structure RefusedAsCount (item : Bytes) : Prop where
  /-- As the number of keys it is refused at once. -/
  keys : ∀ (setting : Setting) (b : Bench) (below : List Bytes) (offset : Nat) (following : Bytes),
    b.stack.items = item :: below →
    perform setting offset Opcode.checkMultisig following b
      = .error (.invalidKeyCount (Number.decode item) setting.limits.maxMultisigKeys.toNat)
          (b.withItems below)
  /-- As the threshold it is refused when the keys have been taken, unless their number was refused
  before that. -/
  threshold : ∀ (setting : Setting) (b : Bench) (count : Bytes) (keys below : List Bytes)
      (offset : Nat) (following : Bytes),
    b.stack.items = count :: (keys.reverse ++ item :: below) →
    Number.decode count = keys.length →
    let limit := setting.limits.maxMultisigKeys.toNat
    perform setting offset Opcode.checkMultisig following b
      = if 1 ≤ keys.length ∧ keys.length ≤ limit then
          .error (.invalidThreshold (Number.decode item) keys.length) (b.withItems below)
        else
          .error (.invalidKeyCount keys.length limit) (b.withItems (keys.reverse ++ item :: below))

/-- What a multiple check refuses is the fault of the instruction. -/
theorem Act.perform_of_refused {setting : Setting} {b : Bench} {fault : Fault} {left : List Bytes}
    (h : MultisigRefused setting.limits.maxMultisigKeys.toNat b.stack.items fault left)
    (offset : Nat) (following : Bytes) :
    perform setting offset Opcode.checkMultisig following b = .error fault (b.withItems left) := by
  rw [perform, show Operation.ofByte Opcode.checkMultisig = .checkMultisig from rfl]
  exact bind_of_error (checkMultisig_of_refused h)

/-- No limit lets a number below one pass for a count. -/
theorem refusedAsCount_of_decode {item : Bytes} (h : Number.decode item < 1) :
    RefusedAsCount item := by
  constructor
  · intro setting b below offset following hitems
    refine perform_of_refused ?_ offset following
    rw [hitems]
    exact .count (by omega)
  · intro setting b count keys below offset following hitems hcount limit
    by_cases hkeys : 1 ≤ keys.length ∧ keys.length ≤ limit
    · obtain ⟨hpos, hle⟩ := hkeys
      rw [if_pos ⟨hpos, hle⟩]
      refine perform_of_refused ?_ offset following
      rw [hitems]
      exact .threshold hcount hpos hle (by omega)
    · -- Now the item is not even looked at.
      rw [if_neg hkeys, ← hcount]
      refine perform_of_refused ?_ offset following
      rw [hitems]
      exact .count (by omega)

/-! ### Numbers that are written -/

/-- What is written for a number is read as this number, or as none.

* Behind the script that is there comes one complete push instruction.
* In a parameter and in code, running it where there is room puts its item on the stack.
* The item is that of the number, which can be read back from it, if the number is below `2 ^ 63`.
* Else the item has nine bytes and is read as -1, and no check of several signatures takes it for a
  count. -/
theorem Writer.number_readBack (n : UInt64) :
    ∃ code item, PushInstruction code item ∧
      (∀ script, Writer.number n script = .ok () (script ++ code)) ∧
      (∀ setting role offset rest b, HasRoom setting.limits b [item] →
        runFrom setting role offset (code ++ rest) b
          = runFrom setting role (offset + code.length) rest (b.pushed [item])) ∧
      (n.toNat < 2 ^ 63 → item = Number.encode n.toNat ∧ Number.decode item = n.toNat) ∧
      (2 ^ 63 ≤ n.toNat →
        item.length = 9 ∧ Number.decode item = -1 ∧ RefusedAsCount item) := by
  have hcode := Template.pushNumber_pushInstruction n
  refine ⟨_, _, hcode, fun _ => rfl, ?_, ?_, ?_⟩
  · intro setting role offset rest b hroom
    rw [runFrom_pushes hcode.pushes, bind_of_ok (pushAll_of_hasRoom hroom)]
  · intro hlt
    exact ⟨rfl, Number.decode_encode hlt⟩
  · intro hle
    -- With its top bit set the number takes eight bytes, and a ninth one for the sign.
    have hlength : (Number.encode n.toNat).length = 9 := Number.length_encode_of_le hle n.toNat_lt
    have hdecode : Number.decode (Number.encode n.toNat) = -1 :=
      Number.decode_of_length (by omega)
    exact ⟨hlength, hdecode, refusedAsCount_of_decode (by omega)⟩

/-- 128 is the first number with a byte of its own for the sign. It is written behind a script and
read in a parameter that has just enough room. The first number that needs all its bits cannot be
the threshold even of a key whose signature is there. -/
theorem Writer.number_readBack_top_bits :
    let setting : Setting := ⟨⟨4, 2, 2, 1⟩, ⟨fun _ _ _ => .ok ()⟩, []⟩
    let b : Bench := { stack := .ofItems [[9]], steps := 3 }
    let large : Bytes := [0, 0, 0, 0, 0, 0, 0, 0x80, 0]
    let ready : Bench := { stack := .ofItems [[1], [7], large, [8]] }
    (Writer.number 128 [0xAC] = .ok () [0xAC, 2, 0x80, 0] ∧ HasRoom setting.limits b [[0x80, 0]] ∧
      runFrom setting .parameter 0 [2, 0x80, 0] b = .ok () (b.pushed [[0x80, 0]]) ∧
      Number.decode [0x80, 0] = 128) ∧
    (Writer.number 0x8000000000000000 [0xAC] = .ok () ([0xAC, 9] ++ large) ∧
      Number.decode large = -1 ∧
      perform setting 0 Opcode.checkMultisig [] ready
        = .error (.invalidThreshold (-1) 1) (ready.withItems [[8]])) := by
  intro setting b large ready
  have hsmall : PushInstruction [2, 0x80, 0] [0x80, 0] :=
    @PushInstruction.bytes [0x80, 0] (by decide) (by decide)
  have hlarge : PushInstruction (9 :: large) large :=
    @PushInstruction.bytes large (by decide) (by decide)
  constructor
  · obtain ⟨code, item, hcode, hwritten, hrun, hread, -⟩ := number_readBack 128
    have hbytes : Template.pushNumber 128 = [2, 0x80, 0] := by decide +kernel
    -- Behind the empty script there is the code and nothing else.
    obtain rfl : code = [2, 0x80, 0] := by
      injection (hwritten []).symm.trans (congrArg (EStateM.Result.ok ()) hbytes)
    obtain rfl : [0x80, 0] = item := List.singleton_inj.mp (hsmall.pushes.inj hcode.pushes)
    have hroom : HasRoom setting.limits b [[0x80, 0]] := ⟨by decide, by decide, by decide⟩
    refine ⟨hwritten [0xAC], hroom, ?_, (hread (by decide)).2⟩
    exact (hrun setting .parameter 0 [] b hroom).trans (congrFun (runFrom_nil _ _ _) _)
  · obtain ⟨code, item, hcode, hwritten, -, -, hread⟩ := number_readBack 0x8000000000000000
    have hbytes : Template.pushNumber 0x8000000000000000 = 9 :: large := by decide +kernel
    obtain rfl : code = 9 :: large := by
      injection (hwritten []).symm.trans (congrArg (EStateM.Result.ok ()) hbytes)
    obtain rfl : large = item := List.singleton_inj.mp (hlarge.pushes.inj hcode.pushes)
    obtain ⟨-, hdecode, hrefused⟩ := hread (by decide)
    have hthreshold := hrefused.threshold setting ready [1] [[7]] [[8]] 0 [] rfl rfl
    rw [hdecode] at hthreshold
    exact ⟨hwritten [0xAC], hdecode, hthreshold⟩

end Countersign
