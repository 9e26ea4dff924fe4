import Countersign.Proofs.Machine.Oversize

/-!
# `Countersign.Proofs.Machine.Faulting`: what a fault leaves behind

A machine that has faulted shows its bench as the fault has left it, so it matters what an
instruction may have done before it faults. `Act.FaultLeaves` is the answer. The instruction is
counted. Of the stack the lower part is left, and nothing was put on top of it. All instructions but
the two checks look before they touch anything, so they leave the whole stack. And the body and the
scheme have not been asked.

That nothing was asked takes the most care, since a check asks before it puts its answer on the
stack. There is always a place for the answer: more items were taken than one, and an item of one
byte is not too large. The exception is a limit of no bytes at all, which an answer yes exceeds.

`Machine.fault_leaves_bottom` says this of every instruction, wherever a run has come to, and of the
runs of whole machines: all questions of a run that has faulted were asked by instructions that were
completed.
-/

set_option autoImplicit false

namespace Countersign

open Act

/-! ### What can be told from a fault -/

/-- The opcodes of the two checks are the only ones that ask for them. -/
theorem ofByte_check_iff {op : UInt8} :
    (Operation.ofByte op = .checkSignature ↔ op = Opcode.checkSignature) ∧
      (Operation.ofByte op = .checkMultisig ↔ op = Opcode.checkMultisig) :=
  Bytes.forall_byte (by decide +kernel) op

/-- Only beginning an instruction can be refused for want of a step, and a plan without credit for
steps begins none. -/
theorem Plan.ne_stepLimit_of_affordable {α : Type} {x : Plan α} {left : α → Nat}
    (hx : Affordable .steps 0 x left) {setting : Setting} {b b' : Bench} {fault : Fault}
    (h : x.act setting b = .error fault b') (limit : Nat) : fault ≠ .stepLimit limit := by
  induction x generalizing b with
  | done answer => cases h
  | giveUp mistake =>
      cases h
      cases mistake <;> simp [Mistake.fault]
  | move m rest ih =>
      obtain ⟨hcost, hrest⟩ := hx
      -- With these prices no move earns anything, so the credit stays what it is.
      have hcredit : 0 - m.cost .steps + m.earn .steps = 0 := by cases m <;> rfl
      rw [act, Act.bind_eq_error_iff] at h
      rcases h with hm | ⟨answer, b₁, -, hlater⟩
      · cases Move.act_eq_error_iff.mp hm with
        | tick _ => exact absurd hcost (by decide)
        | _ => simp
      · have hafford := hrest answer
        rw [hcredit] at hafford
        exact ih answer hafford hlater

namespace Act

section
variable {α : Type} {setting : Setting} {b b' : Bench} {fault : Fault}

/-! ### The stack -/

/-- What a check has taken is gone, and all that lay below is still there. -/
theorem suffix_of_check_error {take : Plan α} {post : α → Prop}
    (htake : Plan.Uses Move.Taking take post) {inquire : α → Plan Bool}
    (hinquire : ∀ taken, post taken → ∀ b, Inquires ((inquire taken).act setting) b)
    (h : (do
        let taken ← take
        let accepted ← inquire taken
        Plan.report accepted : Plan Nat).act setting b = .error fault b') :
    b'.stack.items <:+ b.stack.items := by
  have hleaves := Plan.suffix_leaves_of_taking htake setting b
  rcases refused_or_unreported htake hinquire h with
    htaking | ⟨taken, b₁, accepted, htaken, hstack, -, -⟩
  · rwa [leaves_of_error htaking] at hleaves
  · -- Neither asking nor an answer that finds no place changes what taking has left.
    rw [leaves_of_ok htaken] at hleaves
    rwa [hstack]

/-- All instructions but the checks look before they touch anything. -/
theorem bench_of_perform_error {offset : Nat} {op : UInt8} {following : Bytes}
    (hsignature : op ≠ Opcode.checkSignature) (hmultisig : op ≠ Opcode.checkMultisig)
    (h : perform setting offset op following b = .error fault b') : b' = b := by
  cases hpush : isPush op with
  | true =>
      rcases push_or_truncated hpush following with
        ⟨operand, rest, item, rfl, hcode⟩ | ⟨place, htruncated⟩
      · rw [perform_push hcode, bind_eq_error_iff] at h
        rcases h with hfull | ⟨_, _, -, hpure⟩
        · exact bench_of_push_error hfull
        · cases hpure
      · rw [perform_truncated htruncated] at h
        cases h
        rfl
  | false =>
      have hop := isPush_eq_false_iff.mp hpush
      simp only [List.mem_cons, List.not_mem_nil, or_false] at hop
      rcases hop with hop | hop | hop | hop | hop | hop
      · rw [perform, hop] at h
        cases h
      · rw [← Plan.act_perform, Plan.perform, hop] at h
        simp only [Plan.act_bind, Plan.act_ofMove, Move.act] at h
        cases hitems : b.stack.items with
        | nil =>
            rw [bind_of_error (pop_of_nil hitems)] at h
            cases h
            rfl
        | cons item items =>
            rw [bind_of_ok (pop_of_cons hitems)] at h
            cases h
      · rw [← Plan.act_perform, Plan.perform, hop] at h
        simp only [Plan.act_bind, Plan.act_ofMove, Move.act] at h
        cases hitems : b.stack.items with
        | nil =>
            rw [bind_of_error (peek_of_nil hitems)] at h
            cases h
            rfl
        | cons item items =>
            -- The item was read where it lies, so the push finds the stack as it was.
            rw [bind_of_ok (peek_of_cons hitems), bind_eq_error_iff] at h
            rcases h with hfull | ⟨_, _, -, hpure⟩
            · exact bench_of_push_error hfull
            · cases hpure
      · exact absurd (ofByte_check_iff.1.mp hop) hsignature
      · exact absurd (ofByte_check_iff.2.mp hop) hmultisig
      · rw [perform, hop] at h
        cases h
        rfl

/-- What an opcode leaves of a stack when it faults is the lower part of it. -/
theorem suffix_of_perform_error {offset : Nat} {op : UInt8} {following : Bytes}
    (h : perform setting offset op following b = .error fault b') :
    b'.stack.items <:+ b.stack.items := by
  -- The two checks may have taken items, and the others have changed nothing.
  by_cases hsignature : Operation.ofByte op = .checkSignature
  · rw [← Plan.act_perform, Plan.perform_checkSignature offset following hsignature] at h
    exact suffix_of_check_error (Plan.uses_popSignature op) (fun taken _ => inquires_askOne taken) h
  · by_cases hmultisig : Operation.ofByte op = .checkMultisig
    · rw [← Plan.act_perform, Plan.perform_checkMultisig offset following hmultisig] at h
      exact suffix_of_check_error Plan.uses_popMultisig
        (fun taken htaken => inquires_askMany (List.ne_nil_of_length_pos htaken.1)) h
    · rw [ofByte_check_iff.1] at hsignature
      rw [ofByte_check_iff.2] at hmultisig
      obtain rfl := bench_of_perform_error hsignature hmultisig h
      exact List.suffix_rfl

end

/-! ### One instruction -/

/-- What the opcode `op` leaves of the bench `b` when it faults. -/
structure FaultLeaves (setting : Setting) (op : UInt8) (b : Bench) (fault : Fault) (b' : Bench) :
    Prop where
  /-- The instruction is counted. -/
  steps : b'.steps = b.steps + 1
  /-- Items may be gone from the top of the stack, and none has come onto it. -/
  bottom : b'.stack.items <:+ b.stack.items
  /-- Only a check may have taken items. -/
  stack : op ≠ Opcode.checkSignature → op ≠ Opcode.checkMultisig → b'.stack = b.stack
  /-- An instruction that is refused for want of a step has done nothing. -/
  refused : ∀ limit, fault = .stepLimit limit → b'.stack = b.stack
  /-- Nothing was asked of the body or of the scheme. -/
  asked : 1 ≤ setting.limits.maxItemSize.toNat → b'.asked = b.asked

/-- An instruction may stand anywhere, and the stack may hold anything that the limits allow. -/
theorem faultLeaves_of_instruction {setting : Setting} {b b' : Bench} {fault : Fault} {role : Role}
    {offset : Nat} {op : UInt8} {following : Bytes}
    (hroom : b.stack.depth ≤ setting.limits.maxStackSize.toNat)
    (h : instruction setting role offset op following b = .error fault b') :
    FaultLeaves setting op b fault b' := by
  have hsteps := steps_leaves_instruction setting role offset op following b
  rw [leaves_of_error h] at hsteps
  have hasked : 1 ≤ setting.limits.maxItemSize.toNat → b'.asked = b.asked := by
    intro hsize
    rcases asked_of_instruction_error hroom h with hasked | ⟨-, hzero, -⟩
    · exact hasked
    · omega
  rcases error_of_instruction h with ⟨-, -, rfl⟩ | ⟨-, -, -, rfl⟩ | hperform
  · exact ⟨hsteps, List.suffix_rfl, fun _ _ => rfl, fun _ _ => rfl, hasked⟩
  · exact ⟨hsteps, List.suffix_rfl, fun _ _ => rfl, fun _ _ => rfl, hasked⟩
  · -- A step was counted before, and that is all that has changed by then.
    have hbottom : b'.stack.items <:+ b.ticked.stack.items := suffix_of_perform_error hperform
    refine ⟨hsteps, hbottom, ?_, ?_, hasked⟩
    · intro hsignature hmultisig
      rw [bench_of_perform_error hsignature hmultisig hperform, Bench.stack_ticked]
    · intro limit hlimit
      rw [← Plan.act_perform] at hperform
      have hafford := Plan.affordable_perform .steps 0 offset op following
      exact absurd hlimit (Plan.ne_stepLimit_of_affordable hafford hperform limit)

/-! ### Runs that fault -/

/-- The question number `j`, counted from 0, was asked by an instruction that was completed, before
which there were `k` others. -/
def AskedBy (setting : Setting) (remainders : List Remainder) (b : Bench) (k j : Nat) : Prop :=
  ∃ left b₁ left' b₂, firstInstructions setting k remainders b = .ok left b₁ ∧
    nextInstruction setting left b₁ = .ok left' b₂ ∧ b₁.calls.length ≤ j ∧ j < b₂.calls.length

/-- What was asked in the course of some instructions was asked by one of them. -/
theorem exists_askedBy {setting : Setting} {n : Nat} {remainders left : List Remainder}
    {b b' : Bench} (h : firstInstructions setting n remainders b = .ok left b') {j : Nat}
    (hbefore : b.calls.length ≤ j) (hafter : j < b'.calls.length) :
    ∃ k < n, AskedBy setting remainders b k j := by
  induction n generalizing remainders b with
  | zero =>
      cases h
      omega
  | succ n ih =>
      obtain ⟨left₁, b₁, hnext, hrest⟩ := bind_eq_ok_iff.mp h
      by_cases hfirst : j < b₁.calls.length
      · exact ⟨0, Nat.zero_lt_succ n, remainders, b, left₁, b₁, rfl, hnext, hbefore, hfirst⟩
      · obtain ⟨k, hk, left₂, b₂, left₃, b₃, hreached, hasked⟩ :=
          ih hrest (Nat.le_of_not_lt hfirst)
        refine ⟨k + 1, Nat.succ_lt_succ hk, left₂, b₂, left₃, b₃, ?_, hasked⟩
        rw [firstInstructions, bind_of_ok hnext, hreached]

end Act

namespace Machine

/-- What a fault leaves behind.

* Wherever a machine has come to after some instructions, an instruction that faults is counted and
  leaves the lower part of the stack. It leaves the whole stack unless it is a check, or if it was
  refused for want of a step. If an item may have a byte, it has asked nothing.
* A machine that shows a fault has completed some instructions, as many as it had counted by then,
  and has faulted at the next one. If an item may have a byte, each of its questions was asked by
  one of the instructions that it has completed. -/
theorem fault_leaves_bottom (setting : Setting) (commands : List Command) :
    let m := (Machine.new setting).after commands
    let begun : List Remainder := (loadedFirst commands).reverse.map Segment.remainder
    (∀ n left b,
      firstInstructions setting n (m.segments.map Segment.remainder) m.bench = .ok left b →
      ∀ role offset op following fault b',
        instruction setting role offset op following b = .error fault b' →
        FaultLeaves setting op b fault b') ∧
    (∀ fault, m.fault = some fault →
      ∃ n i b, StopsAt setting begun Bench.fresh n i b fault m.bench ∧
        FaultLeaves setting i.op b fault m.bench ∧
        (1 ≤ setting.limits.maxItemSize.toNat →
          ∀ j < m.signatureCalls.length, ∃ k < n, AskedBy setting begun Bench.fresh k j)) := by
  intro m begun
  -- Every instruction keeps the stack within its limits, so a check has room for its answer.
  have hkeeps : ∀ role offset op following (b : Bench), b.WithinLimits setting.limits →
      ((instruction setting role offset op following).leaves b).WithinLimits setting.limits :=
    fun role offset op following b hb => withinLimits_instruction hb role offset op following
  constructor
  · intro n left b hfirst role offset op following fault b' hfault
    have hb : b.WithinLimits setting.limits :=
      inv_of_firstInstructions hkeeps (withinLimits_after setting commands) hfirst
    exact faultLeaves_of_instruction hb.depth hfault
  · intro fault hfault
    have hrun := runSegments_of_fault hfault
    rw [← runRemainders_remainders] at hrun
    obtain ⟨n, i, b, hstops⟩ := exists_stopsAt hrun
    obtain ⟨left, hfirst, -⟩ := hstops.reached
    have hb : b.WithinLimits setting.limits :=
      inv_of_firstInstructions hkeeps (Bench.withinLimits_fresh _) hfirst
    have hleaves := faultLeaves_of_instruction hb.depth hstops.faulted
    refine ⟨n, i, b, hstops, hleaves, ?_⟩
    intro hsize j hj
    have hcalls : m.bench.calls = b.calls := congrArg Asked.calls (hleaves.asked hsize)
    rw [signatureCalls, List.length_reverse, hcalls] at hj
    exact exists_askedBy hfirst (Nat.zero_le j) hj

/-- A check of one signature is completed, and its answer lies on the stack. Then a multiple check
takes two keys and their counts, and finds only this answer where it needs two signatures. It has
emptied the stack when it faults, and the only question is that of the first check. Where the run
has come to after a push, a check of one signature takes the item before it faults. -/
theorem fault_leaves_bottom_two_checks :
    let setting : Setting := ⟨⟨9, 5, 1, 2⟩, ⟨fun _ _ _ => .ok ()⟩, [1, 2, 3]⟩
    let code : Bytes := [1, 7, 1, 8, 0xAC, 0x52, 1, 8, 1, 9, 0x52, 0xAE]
    let begun : List Remainder := [⟨.code, 0, code⟩]
    let m := (Machine.new setting).after [.load code .code, .execute]
    (m.fault = some (.stackUnderflow 0xAE) ∧ m.bench.steps = 8 ∧ m.bench.stack.items = [] ∧
      m.signatureCalls.length = 1 ∧
      ∃ n i b, StopsAt setting begun Bench.fresh n i b (.stackUnderflow 0xAE) m.bench ∧ n = 7 ∧
        FaultLeaves setting i.op b (.stackUnderflow 0xAE) m.bench ∧
        ∃ k < n, AskedBy setting begun Bench.fresh k 0) ∧
    (∃ left b b', firstInstructions setting 1 begun Bench.fresh = .ok left b ∧
      instruction setting .code 2 0xAC [] b = .error (.stackUnderflow 0xAC) b' ∧
      b.stack.items = [[7]] ∧ b'.stack.items = [] ∧
      FaultLeaves setting 0xAC b (.stackUnderflow 0xAC) b') := by
  intro setting code begun m
  obtain ⟨-, hfaults⟩ := fault_leaves_bottom setting [.load code .code, .execute]
  obtain ⟨hleaves, -⟩ := fault_leaves_bottom setting [.load code .code]
  have hfault : m.fault = some (.stackUnderflow 0xAE) := by decide +kernel
  have hsteps : m.bench.steps = 8 := by decide +kernel
  have hitems : m.bench.stack.items = [] := by decide +kernel
  have hcalls : m.signatureCalls.length = 1 := by decide +kernel
  obtain ⟨n, i, b, hstops, hrest, hasked⟩ := hfaults _ hfault
  have hn : n = 7 := by
    have hcounted : b.steps = 0 + n := hstops.counted
    have hlast : m.bench.steps = b.steps + 1 := hrest.steps
    omega
  have hquestion : ∃ k < n, AskedBy setting begun Bench.fresh k 0 := by
    refine hasked (by decide) 0 ?_
    show 0 < m.signatureCalls.length
    omega
  have hreached : ∃ left b, firstInstructions setting 1 begun Bench.fresh = .ok left b ∧
      ∃ b', instruction setting .code 2 0xAC [] b = .error (.stackUnderflow 0xAC) b' ∧
        b.stack.items = [[7]] ∧ b'.stack.items = [] :=
    ⟨_, _, rfl, _, rfl, rfl, rfl⟩
  obtain ⟨left, b₁, hfirst, b₂, hchecked, hbefore, hafter⟩ := hreached
  exact ⟨⟨hfault, hsteps, hitems, hcalls, n, i, b, hstops, hn, hrest, hquestion⟩,
    left, b₁, b₂, hfirst, hchecked, hbefore, hafter,
    hleaves 1 left b₁ hfirst .code 2 0xAC [] _ b₂ hchecked⟩

end Machine

end Countersign
