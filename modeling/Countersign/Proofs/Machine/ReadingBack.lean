import Countersign.Proofs.Machine.Pushing
import Countersign.Proofs.Script.Writer

/-!
# `Countersign.Proofs.Machine.ReadingBack`: a machine reads what was written

Signatures are handed over as a parameter, written in one place and read in another. The two have
to agree on where each item ends, for items of every length and for any number of them.

`Template.signatures_readBack` says that they do. Signatures can be written unless one of them is
too long. Running the parameter then puts exactly these items on the stack, on top of whatever is
there, at the price of a step for each, and asks no questions.

A row of push instructions can be read in one way only (`Pushes.inj`), so different signatures are
different parameters. The reader itself is the reason: what it does with the first instruction tells
how long that is and what it pushes, whatever stands behind it.
-/

set_option autoImplicit false

namespace Countersign

open Act

/-! ### Rows of push instructions are read in one way -/

/-- Reading the first instruction of a script shows its length and its item. -/
theorem perform_push_fresh {op : UInt8} {operand item : Bytes}
    (h : PushInstruction (op :: operand) item) (setting : Setting)
    (hlimits : setting.limits = Limits.standard) (rest : Bytes) :
    perform setting 0 op (operand ++ rest) Bench.fresh
      = .ok operand.length { Bench.fresh with stack := Bench.fresh.stack.push item } := by
  have hsize : item.length ≤ setting.limits.maxItemSize.toNat := by
    rw [hlimits]
    exact h.length_le
  have hroom : Bench.fresh.stack.depth < setting.limits.maxStackSize.toNat := by
    rw [hlimits]
    decide
  rw [perform_push h, bind_of_ok (push_of_room hsize hroom)]
  rfl

/-- Two instructions that push and begin the same script push the same item and leave the same rest.
-/
theorem PushInstruction.inj {code code' item item' rest rest' : Bytes}
    (h : PushInstruction code item) (h' : PushInstruction code' item')
    (heq : code ++ rest = code' ++ rest') : item = item' ∧ rest = rest' := by
  obtain ⟨op, operand, rfl⟩ := h.exists_cons
  obtain ⟨op', operand', rfl⟩ := h'.exists_cons
  obtain ⟨rfl, hoperands⟩ : op = op' ∧ operand ++ rest = operand' ++ rest' := by
    simpa using heq
  -- Any setting with room for the item will do to compare what is read.
  let setting : Setting := ⟨Limits.standard, ⟨fun _ _ _ => .ok ()⟩, []⟩
  have hread := perform_push_fresh h setting rfl rest
  rw [hoperands, perform_push_fresh h' setting rfl rest'] at hread
  injection hread with hlength hbench
  have hitems : [item'] = [item] := congrArg (fun b : Bench => b.stack.items) hbench
  exact ⟨(List.cons.inj hitems).1.symm, (List.append_inj hoperands hlength.symm).2⟩

/-- A script is a row of push instructions in at most one way. -/
theorem Pushes.inj {script : Bytes} {items items' : List Bytes} (h : Pushes script items)
    (h' : Pushes script items') : items = items' := by
  induction h generalizing items' with
  | nil =>
      cases items' with
      | nil => rfl
      | cons item items =>
          -- A row of one instruction or more is not empty.
          exact absurd rfl (h'.ne_nil (List.cons_ne_nil item items))
  | @cons code item script items hcode _ ih =>
      generalize hwhole : code ++ script = whole at h'
      cases h' with
      | nil =>
          obtain ⟨op, operand, rfl⟩ := hcode.exists_cons
          cases hwhole
      | cons hcode' hscript' =>
          -- The first instructions push the same item, and the same bytes are left.
          obtain ⟨rfl, rfl⟩ := hcode.inj hcode' hwhole
          rw [ih hscript']

/-! ### Signatures -/

namespace Template

/-- A parameter that hands over signatures is read as it was written.

* It can be written if and only if no signature has more than 65535 bytes, and else it is refused
  for the first one that has.
* It is what writing the signatures one after the other onto an empty script comes to. Each of them
  is put behind what is there as one instruction, or is refused and leaves the script as it is.
* Where there is room for the signatures, running it puts them on top of the stack in their order.
  It costs one step for each and changes nothing else.
* It is the parameter of no other signatures. -/
theorem signatures_readBack (items : List Bytes) :
    ((∃ script, signatures items = .ok script) ↔ ∀ item ∈ items, item.length ≤ 65535) ∧
    (∀ item, items.find? (fun item => 65535 < item.length) = some item →
      signatures items = .error (.itemTooLarge item.length)) ∧
    (Writer.items items).script = signatures items ∧
    (∀ item,
      (item.length ≤ 65535 → ∃ code, PushInstruction code item ∧
        ∀ script, Writer.item item script = .ok () (script ++ code)) ∧
      (65535 < item.length →
        ∀ script, Writer.item item script = .error (.itemTooLarge item.length) script)) ∧
    (∀ script, signatures items = .ok script →
      (∀ setting b, HasRoom setting.limits b items →
        runSegment setting ⟨script, .parameter⟩ b = .ok () (b.pushed items)) ∧
      (∀ items', signatures items' = .ok script → items' = items)) := by
  refine ⟨exists_pushItems_iff, ?_, Writer.script_items items, ?_, ?_⟩
  · intro item hlarge
    exact pushItems_of_large hlarge
  · intro item
    refine ⟨?_, Writer.item_of_large⟩
    intro hfits
    obtain ⟨code, hcode⟩ := exists_pushItem hfits
    exact ⟨code, pushItem_pushInstruction hcode, Writer.item_of_ok hcode⟩
  · intro script hscript
    have hpushes : Pushes script items := pushItems_pushes hscript
    constructor
    · intro setting b hroom
      rw [runSegment_pushes hpushes]
      exact pushAll_of_hasRoom hroom
    · intro items' hscript'
      exact (pushItems_pushes hscript').inj hpushes

/-- Four items, each of them the shortest or the longest that its instruction is used for, on top of
one that is there, with limits that leave just enough room. Of two items that are too long the first
one is named. -/
theorem signatures_readBack_four :
    let items : List Bytes := [[], List.replicate 75 3, List.replicate 76 4, List.replicate 256 5]
    let setting : Setting := ⟨⟨7, 5, 256, 0⟩, ⟨fun _ _ _ => .ok ()⟩, []⟩
    let b : Bench := { stack := .ofItems [[9]], steps := 3 }
    let large : List Bytes := [[], List.replicate 65536 0, List.replicate 65537 0]
    (∃ script, signatures items = .ok script ∧ script.length = 1 + 76 + 78 + 259 ∧
      HasRoom setting.limits b items ∧
      runSegment setting ⟨script, .parameter⟩ b = .ok () (b.pushed items) ∧
      (b.pushed items).steps = 7 ∧ (b.pushed items).stack.items = items.reverse ++ [[9]]) ∧
    signatures large = .error (.itemTooLarge 65536) := by
  intro items setting b large
  have hfits : ∀ item ∈ items, item.length ≤ 256 := by
    simp only [items, List.forall_mem_cons, List.length_replicate, List.length_nil]
    simp
  have hroom : HasRoom setting.limits b items := ⟨by decide, by decide, hfits⟩
  have hfind : large.find? (fun item => 65535 < item.length) = some (List.replicate 65536 0) := by
    rw [List.find?_cons_of_neg (by decide), List.find?_cons_of_pos]
    rw [List.length_replicate]
    decide
  obtain ⟨hwritten, -, -, -, hread⟩ := signatures_readBack items
  obtain ⟨-, hlarge, -, -, -⟩ := signatures_readBack large
  obtain ⟨script, hscript⟩ := hwritten.mpr fun item hitem =>
    Nat.le_trans (hfits item hitem) (by decide)
  have hlength : (signatures items).toOption.map List.length = some (1 + 76 + 78 + 259) := by
    decide +kernel
  rw [hscript] at hlength
  have hrun := (hread script hscript).1 setting b hroom
  refine ⟨⟨script, hscript, Option.some.inj hlength, hroom, hrun, rfl, rfl⟩, ?_⟩
  rw [hlarge _ hfind, List.length_replicate]

end Template

end Countersign
