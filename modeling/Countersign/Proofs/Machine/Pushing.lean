import Countersign.Machine.Run
import Countersign.Proofs.Machine.Act
import Countersign.Proofs.Script.Number
import Countersign.Proofs.Script.Push

/-!
# `Countersign.Proofs.Machine.Pushing`: running rows of push instructions

The machine sees of a row of push instructions only the items that it pushes. `runFrom_pushes`
says so as an equation between acts, so it covers the runs that fault as well: running such a row
in front of anything, in either role, is `pushAll` of the items and then the rest.

`pushAll_of_hasRoom` and `pushAll_faults` say when pushing the items comes to an end. A parameter
that is no such row never comes to an end (`runFrom_parameter_faults`).
-/

set_option autoImplicit false

namespace Countersign

/-- The bench after items were pushed onto it, the last one on top. -/
def Bench.pushed (b : Bench) (items : List Bytes) : Bench :=
  { b with
    stack := .ofItems (items.reverse ++ b.stack.items)
    steps := b.steps + items.length }

/-- Every item that is pushed counts a step. -/
@[simp] theorem Bench.steps_pushed (b : Bench) (items : List Bytes) :
    (b.pushed items).steps = b.steps + items.length :=
  rfl

/-- The items stand on the stack in the order opposite to that in which they were pushed. -/
@[simp] theorem Bench.items_pushed (b : Bench) (items : List Bytes) :
    (b.pushed items).stack.items = items.reverse ++ b.stack.items :=
  rfl

/-- The stack grows by the number of items. -/
theorem Bench.depth_pushed (b : Bench) (items : List Bytes) :
    (b.pushed items).stack.depth = b.stack.depth + items.length := by
  rw [Stack.depth_eq, items_pushed, List.length_append, List.length_reverse, b.stack.depth_eq,
    Nat.add_comm]

/-- Pushing nothing changes nothing. -/
theorem Bench.pushed_nil (b : Bench) : b.pushed [] = b := by
  have hstack : Stack.ofItems ([] ++ b.stack.items) = b.stack := Stack.ext rfl
  rw [pushed, List.reverse_nil, hstack]
  rfl

/-- Pushing an item and then others is pushing all of them. -/
theorem Bench.pushed_cons (b : Bench) (item : Bytes) (items : List Bytes) :
    (b.pushed [item]).pushed items = b.pushed (item :: items) := by
  simp only [pushed, List.reverse_cons, List.reverse_nil, List.nil_append, Stack.items_ofItems,
    List.append_assoc, List.length_cons, List.length_nil]
  rw [Nat.add_assoc, Nat.zero_add, Nat.add_comm items.length 1]

/-- The limits leave room to push items onto a bench. -/
structure HasRoom (limits : Limits) (b : Bench) (items : List Bytes) : Prop where
  steps : b.steps + items.length ≤ limits.maxSteps.toNat
  depth : b.stack.depth + items.length ≤ limits.maxStackSize.toNat
  size : ∀ item ∈ items, item.length ≤ limits.maxItemSize.toNat

/-- Room for several items is room for the first, and room for the others once it is there. -/
theorem hasRoom_cons {limits : Limits} {b : Bench} {item : Bytes} {items : List Bytes} :
    HasRoom limits b (item :: items) ↔
      b.steps < limits.maxSteps.toNat ∧ b.stack.depth < limits.maxStackSize.toNat ∧
        item.length ≤ limits.maxItemSize.toNat ∧ HasRoom limits (b.pushed [item]) items := by
  have hsteps := b.steps_pushed [item]
  have hdepth := b.depth_pushed [item]
  rw [List.length_singleton] at hsteps hdepth
  constructor
  · rintro ⟨hs, hd, hsize⟩
    rw [List.length_cons] at hs hd
    refine ⟨by omega, by omega, hsize item List.mem_cons_self, ?_, ?_, ?_⟩
    · rw [hsteps]
      omega
    · rw [hdepth]
      omega
    · exact fun i hi => hsize i (List.mem_cons_of_mem item hi)
  · rintro ⟨-, -, hitem, hs, hd, hsize⟩
    rw [hsteps] at hs
    rw [hdepth] at hd
    refine ⟨?_, ?_, ?_⟩
    · rw [List.length_cons]
      omega
    · rw [List.length_cons]
      omega
    · intro i hi
      rcases List.mem_cons.mp hi with rfl | hi
      · exact hitem
      · exact hsize i hi

namespace Act

/-- Pushes items one after the other, each at the cost of a step. -/
def pushAll (limits : Limits) : List Bytes → Act Unit
  | [] => pure ()
  | item :: items => do
    tick limits
    push limits item
    pushAll limits items

/-- Two rows of items are pushed one after the other. -/
theorem pushAll_append (limits : Limits) (items items' : List Bytes) :
    pushAll limits (items ++ items') = (do pushAll limits items; pushAll limits items') := by
  induction items with
  | nil => rw [List.nil_append, pushAll, pure_bind]
  | cons item items ih =>
      rw [List.cons_append, pushAll, pushAll, ih, bind_assoc]
      simp only [bind_assoc]

/-- Counting a step and pushing, where there is room for both. -/
theorem tick_push_of_room {limits : Limits} {item : Bytes} {b : Bench}
    (hsteps : b.steps < limits.maxSteps.toNat) (hdepth : b.stack.depth < limits.maxStackSize.toNat)
    (hsize : item.length ≤ limits.maxItemSize.toNat) :
    (do tick limits; push limits item : Act Unit) b = .ok () (b.pushed [item]) := by
  have hpush := push_of_room (b := b.ticked) hsize hdepth
  have hstack : b.ticked.stack.push item = .ofItems (item :: b.stack.items) := Stack.ext rfl
  rw [bind_of_ok (tick_of_lt hsteps), hpush, hstack]
  rfl

/-- Counting a step and pushing comes to a fault where there is no room for one of them. -/
theorem tick_push_faults {limits : Limits} {item : Bytes} {b : Bench}
    (h : ¬ (b.steps < limits.maxSteps.toNat ∧ b.stack.depth < limits.maxStackSize.toNat ∧
      item.length ≤ limits.maxItemSize.toNat)) :
    Faults (do tick limits; push limits item : Act Unit) b := by
  -- The limits are looked at in this order: steps, the size of the item, the size of the stack.
  by_cases hsteps : b.steps < limits.maxSteps.toNat
  · refine Faults.bind_of_ok ?_ (tick_of_lt hsteps)
    by_cases hsize : item.length ≤ limits.maxItemSize.toNat
    · have hfull : limits.maxStackSize.toNat ≤ b.ticked.stack.depth :=
        Nat.le_of_not_lt fun hdepth => h ⟨hsteps, hdepth, hsize⟩
      exact ⟨_, _, push_of_full hsize hfull⟩
    · exact ⟨_, _, push_of_tooLarge (Nat.lt_of_not_le hsize) _⟩
  · exact Faults.bind ⟨_, _, tick_of_le (Nat.le_of_not_lt hsteps)⟩ _

/-- Where there is room for all items, all of them are pushed. -/
theorem pushAll_of_hasRoom {limits : Limits} {b : Bench} {items : List Bytes}
    (h : HasRoom limits b items) : pushAll limits items b = .ok () (b.pushed items) := by
  -- The bench changes with every item, so the induction is for all of them.
  induction items generalizing b with
  | nil =>
      rw [Bench.pushed_nil]
      rfl
  | cons item items ih =>
      obtain ⟨hsteps, hdepth, hsize, hrest⟩ := hasRoom_cons.mp h
      have hfirst := tick_push_of_room hsteps hdepth hsize
      rw [pushAll, ← bind_assoc, bind_of_ok hfirst, ih hrest, Bench.pushed_cons]

/-- Without room for all items some push on the way faults. -/
theorem pushAll_faults {limits : Limits} {b : Bench} {items : List Bytes} (hitems : items ≠ [])
    (h : ¬ HasRoom limits b items) : Faults (pushAll limits items) b := by
  induction items generalizing b with
  | nil => exact absurd rfl hitems
  | cons item items ih =>
      rw [pushAll, ← bind_assoc]
      by_cases hfits : b.steps < limits.maxSteps.toNat ∧
          b.stack.depth < limits.maxStackSize.toNat ∧ item.length ≤ limits.maxItemSize.toNat
      · -- The first item fits, so it is the others that there is no room for.
        obtain ⟨hsteps, hdepth, hsize⟩ := hfits
        have hrest : ¬ HasRoom limits (b.pushed [item]) items :=
          fun hr => h (hasRoom_cons.mpr ⟨hsteps, hdepth, hsize, hr⟩)
        have hne : items ≠ [] := by
          rintro rfl
          refine hrest ⟨hsteps, ?_, by simp⟩
          rw [Bench.depth_pushed]
          exact hdepth
        exact Faults.bind_of_ok (ih hne hrest) (tick_push_of_room hsteps hdepth hsize)
      · exact Faults.bind (tick_push_faults hfits) _

/-! ### One instruction -/

/-- An operand that is there in full is read. -/
theorem operand_append {offset n : Nat} (front : Bytes) {rest : Bytes} (h : front.length = n) :
    operand offset n (front ++ rest) = pure front := by
  rw [operand, Bytes.splitAt?_eq_some_iff.mpr ⟨rfl, h⟩]

/-- An operand that is cut off faults at its own offset. -/
theorem operand_of_lt {offset n : Nat} {following : Bytes} (h : following.length < n) :
    operand offset n following = throw (.truncatedPush offset) := by
  rw [operand, Bytes.splitAt?_eq_none_iff.mpr h]

/-- A complete push instruction pushes its item and is passed over as a whole. -/
theorem perform_push {op : UInt8} {tail item : Bytes} (h : PushInstruction (op :: tail) item)
    (setting : Setting) (offset : Nat) (rest : Bytes) :
    perform setting offset op (tail ++ rest)
      = (do push setting.limits item; return tail.length) := by
  -- Each form of push carries the length of its operand in another way, and reads it back.
  cases h with
  | empty => rfl
  | bytes hpos hle =>
      have hlength : (UInt8.ofNat tail.length).toNat = tail.length :=
        UInt8.toNat_ofNat_of_lt' (show tail.length < 256 from by omega)
      rw [perform, ofByte_of_le (by omega) (by omega), hlength]
      dsimp only
      rw [operand_append tail rfl, pure_bind]
  | counted hle =>
      have hlength : Bytes.toNatLE [UInt8.ofNat item.length] = item.length := by
        rw [Bytes.toNatLE_singleton]
        exact UInt8.toNat_ofNat_of_lt' (show item.length < 256 from by omega)
      have hcount : operand (offset + 1) 1 (UInt8.ofNat item.length :: item ++ rest)
          = pure [UInt8.ofNat item.length] := operand_append [_] rfl
      rw [perform, show Operation.ofByte Opcode.pushCounted = .pushCounted from rfl]
      dsimp only
      rw [hcount, pure_bind, hlength, List.cons_append, List.drop_one, List.tail_cons,
        operand_append item rfl, pure_bind, List.length_cons, Nat.add_comm]
  | countedWide hle =>
      have hlength : Bytes.toNatLE (Bytes.ofNatLE 2 item.length) = item.length :=
        Bytes.toNatLE_ofNatLE_of_lt (by omega)
      have hwidth : (Bytes.ofNatLE 2 item.length).length = 2 := Bytes.length_ofNatLE 2 _
      rw [perform, show Operation.ofByte Opcode.pushCountedWide = .pushCountedWide from rfl]
      dsimp only
      rw [List.append_assoc, operand_append _ hwidth, pure_bind, hlength,
        List.drop_left' hwidth, operand_append item rfl, pure_bind, List.length_append, hwidth]
  | minusOne =>
      have hitem : Number.encode (-1) = [0x81] := by
        rw [Number.encode, show (-1 : Int).natAbs = 1 from rfl, Number.magnitude_of_pos (by omega)]
        rw [show 1 / 256 = 0 from rfl, Number.magnitude_zero]
        rfl
      rw [← hitem]
      rfl
  | number hpos hle =>
      rw [perform, ofByte_number hpos hle]
      dsimp only
      rw [Number.encode_of_lt hpos (by omega)]
      rfl

/-- A push whose operand is cut off faults where the operand should have been. -/
theorem perform_truncated {op : UInt8} {following : Bytes} {place : Nat}
    (h : TruncatedPush op following place) (setting : Setting) (offset : Nat) :
    perform setting offset op following = throw (.truncatedPush (offset + place)) := by
  -- The operand itself may be cut off, or the count that stands before it.
  cases h with
  | bytes hpos hle hlt =>
      rw [perform, ofByte_of_le hpos hle]
      dsimp only
      rw [operand_of_lt hlt]
      rfl
  | count => rfl
  | @counted length rest hlt =>
      have hcount : operand (offset + 1) 1 (length :: rest) = pure [length] :=
        operand_append [length] rfl
      rw [perform, show Operation.ofByte Opcode.pushCounted = .pushCounted from rfl]
      dsimp only
      rw [hcount, pure_bind, Bytes.toNatLE_singleton, List.drop_one, List.tail_cons,
        operand_of_lt hlt]
      rfl
  | wideCount hlt =>
      rw [perform, show Operation.ofByte Opcode.pushCountedWide = .pushCountedWide from rfl]
      dsimp only
      rw [operand_of_lt hlt]
      rfl
  | @countedWide low high rest hlt =>
      have hcount : operand (offset + 1) 2 (low :: high :: rest) = pure [low, high] :=
        operand_append [low, high] rfl
      have hvalue : Bytes.toNatLE [low, high] = low.toNat + 256 * high.toNat := by
        rw [Bytes.toNatLE, Bytes.toNatLE_singleton]
      rw [perform, show Operation.ofByte Opcode.pushCountedWide = .pushCountedWide from rfl]
      dsimp only
      rw [hcount, pure_bind, hvalue, List.drop_succ_cons, List.drop_succ_cons, List.drop_zero,
        operand_of_lt hlt]
      rfl

/-- In either role a complete push counts a step and pushes its item. -/
theorem instruction_push {op : UInt8} {tail item : Bytes} (h : PushInstruction (op :: tail) item)
    (setting : Setting) (role : Role) (offset : Nat) (rest : Bytes) :
    instruction setting role offset op (tail ++ rest)
      = (do tick setting.limits; push setting.limits item; return tail.length) := by
  have hpush : ¬ (role = .parameter ∧ isPush op = false) := by
    rw [h.isPush]
    simp
  rw [instruction, if_neg hpush, perform_push h]

/-- In either role a push that is cut off counts a step before it faults. -/
theorem instruction_truncated {op : UInt8} {following : Bytes} {place : Nat}
    (h : TruncatedPush op following place) (setting : Setting) (role : Role) (offset : Nat) :
    instruction setting role offset op following
      = (do tick setting.limits; throw (.truncatedPush (offset + place))) := by
  have hpush : ¬ (role = .parameter ∧ isPush op = false) := by simp [h.isPush]
  rw [instruction, if_neg hpush, perform_truncated h]

/-- In a parameter any other opcode faults, whatever it would do. -/
theorem instruction_nonPush {op : UInt8} (h : isPush op = false) (setting : Setting)
    (offset : Nat) (following : Bytes) :
    instruction setting .parameter offset op following
      = (do tick setting.limits; throw (.nonPushParameter op)) := by
  rw [instruction, if_pos ⟨rfl, h⟩]
  rfl

/-! ### Rows of instructions -/

/-- At the end of a script nothing is left to do. -/
theorem runFrom_nil (setting : Setting) (role : Role) (offset : Nat) :
    runFrom setting role offset [] = pure () := by
  rw [runFrom]

/-- A run takes a push instruction at its beginning, and goes on behind it. -/
theorem runFrom_push {code item : Bytes} (h : PushInstruction code item) (setting : Setting)
    (role : Role) (offset : Nat) (rest : Bytes) :
    runFrom setting role offset (code ++ rest)
      = (do
          tick setting.limits
          push setting.limits item
          runFrom setting role (offset + code.length) rest) := by
  obtain ⟨op, tail, rfl⟩ := h.exists_cons
  have hoffset : offset + 1 + tail.length = offset + (op :: tail).length := by
    rw [List.length_cons]
    omega
  rw [List.cons_append, runFrom, instruction_push h]
  simp only [bind_assoc, pure_bind]
  rw [List.drop_left, hoffset]

/-- A row of push instructions is run as its items are pushed, whatever stands behind it. -/
theorem runFrom_pushes {script : Bytes} {items : List Bytes} (h : Pushes script items)
    (setting : Setting) (role : Role) (offset : Nat) (rest : Bytes) :
    runFrom setting role offset (script ++ rest)
      = (do
          pushAll setting.limits items
          runFrom setting role (offset + script.length) rest) := by
  induction h generalizing offset with
  | nil => rw [pushAll, pure_bind, List.nil_append, List.length_nil, Nat.add_zero]
  | cons hcode _ ih =>
      rw [List.append_assoc, runFrom_push hcode, ih, pushAll, List.length_append, Nat.add_assoc]
      simp only [bind_assoc]

/-- A segment that is a row of push instructions does nothing but push their items. -/
theorem runSegment_pushes {script : Bytes} {items : List Bytes} (h : Pushes script items)
    (setting : Setting) (role : Role) :
    runSegment setting ⟨script, role⟩ = pushAll setting.limits items := by
  have hrun := runFrom_pushes h setting role 0 []
  rw [List.append_nil, runFrom_nil] at hrun
  rw [runSegment, hrun]
  exact bind_pure _

/-! ### Parameters that are no row of push instructions -/

/-- A parameter faults at an opcode that is no push. -/
theorem runFrom_nonPush {op : UInt8} (h : isPush op = false) (setting : Setting) (offset : Nat)
    (following : Bytes) (b : Bench) :
    Faults (runFrom setting .parameter offset (op :: following)) b := by
  rw [runFrom, instruction_nonPush h]
  exact Faults.bind (faults_bind (fun _ b' => faults_throw _ b') b) _

/-- A script faults at a push that is cut off. -/
theorem runFrom_truncated {op : UInt8} {following : Bytes} {place : Nat}
    (h : TruncatedPush op following place) (setting : Setting) (role : Role) (offset : Nat)
    (b : Bench) : Faults (runFrom setting role offset (op :: following)) b := by
  rw [runFrom, instruction_truncated h]
  exact Faults.bind (faults_bind (fun _ b' => faults_throw _ b') b) _

/-- A parameter that is no row of push instructions faults, if not at a limit then at the first
byte that belongs to no complete push. -/
theorem runFrom_parameter_faults {script : Bytes} (h : ¬ ∃ items, Pushes script items)
    (setting : Setting) (offset : Nat) (b : Bench) :
    Faults (runFrom setting .parameter offset script) b := by
  -- The induction follows the run: each instruction leaves a shorter script.
  induction hn : script.length using Nat.strongRecOn generalizing offset script b with
  | ind n ih =>
      cases script with
      | nil => exact absurd ⟨[], .nil⟩ h
      | cons op following =>
          cases hpush : isPush op with
          | false => exact runFrom_nonPush hpush setting offset following b
          | true =>
              rcases push_or_truncated hpush following with
                ⟨tail, rest, item, rfl, hcode⟩ | ⟨place, htruncated⟩
              · have hrest : ¬ ∃ items, Pushes rest items := by
                  rintro ⟨items, hitems⟩
                  exact h ⟨item :: items, .cons hcode hitems⟩
                have hlt : rest.length < n := by
                  rw [← hn, List.length_cons, List.length_append]
                  omega
                rw [← List.cons_append, runFrom_push hcode]
                exact faults_bind (fun _ b₁ => faults_bind (fun _ b₂ =>
                  ih rest.length hlt hrest _ b₂ rfl) b₁) b
              · exact runFrom_truncated htruncated setting .parameter offset b

end Act

end Countersign
