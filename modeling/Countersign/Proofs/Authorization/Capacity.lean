import Countersign.Proofs.Authorization.Workload
import Countersign.Proofs.Machine.Oversize

/-!
# `Countersign.Proofs.Authorization.Capacity`: limits on memory hold, and zero lets nothing pass

The limits of a machine are not checked when it is made, so any of them may be zero. The stack stays
within its limits all the same, and some faults cannot come about: an item is never too large to be
doubled, the answer to a check finds room, and no script exceeds a limit of 65535 bytes.
`memory_within_limits` says so of every run.

A limit of zero fails safely (`authorize_of_zero`). To pass, a run has to leave one item, and a true
one. Without steps or without room there is no item, and an item of no bytes is not true.
-/

set_option autoImplicit false

namespace Countersign

variable {limits : Limits}

/-- A bench that passes has one item, so the limits have to allow for an item, and for a step and a
byte as well. -/
theorem Bench.ne_zero_of_top {b : Bench} {bytes : Nat} (hlimits : b.WithinLimits limits)
    (hbudget : b.WithinBudget limits bytes) (hdepth : b.stack.depth = 1)
    (htop : b.stack.top?.any isTrue = true) :
    limits.maxSteps ≠ 0 ∧ limits.maxStackSize ≠ 0 ∧ limits.maxItemSize ≠ 0 := by
  refine ⟨?_, ?_, ?_⟩
  · rintro hzero
    have hwork := hbudget.work
    rw [hzero, hdepth] at hwork
    simp at hwork
  · rintro hzero
    have hroom := hlimits.depth
    rw [hzero, hdepth] at hroom
    simp at hroom
  · rintro hzero
    obtain ⟨item, hitem, htrue⟩ := (Option.any_eq_true _ _).mp htop
    have hsize := hlimits.size item (List.mem_of_head? hitem)
    -- The item has no bytes then, and the empty item is false.
    rw [hzero] at hsize
    have hnil : item = [] := List.length_eq_zero_iff.mp (Nat.le_zero.mp hsize)
    rw [hnil] at htrue
    cases htrue

variable (scheme : SignatureScheme) (ledger : Ledger)

/-- Where there are no steps, no room or no bytes, no request with a witness is authorized. -/
theorem authorize_of_zero
    (h : limits.maxSteps = 0 ∨ limits.maxStackSize = 0 ∨ limits.maxItemSize = 0)
    {request : Request} (hne : request.witnesses ≠ []) :
    (machineAuthorizer limits scheme ledger).authorize request ≠ .ok true := by
  intro hok
  obtain ⟨claim, w, hnone⟩ := Authorizer.exists_unobjected_of_authorize hok hne
  obtain ⟨hdepth, hresult⟩ := Authorizer.engine_of_unobjected hnone
  rw [run_eq_after] at hdepth hresult
  have htop := (Machine.result_eq _).symm.trans hresult
  obtain ⟨hsteps, hroom, hsize⟩ := Bench.ne_zero_of_top
    (Machine.withinLimits_after ⟨limits, scheme, request.body⟩ w.commands)
    (Machine.within_after ⟨limits, scheme, request.body⟩ w.commands).bench hdepth htop
  rcases h with hzero | hzero | hzero
  · exact hsteps hzero
  · exact hroom hzero
  · exact hsize hzero

/-- The limits on memory hold at every point of every run, whatever the limits are.

* Whatever a machine is made to load and to execute: the bench that it has, and every bench that it
  passes through when it executes next, holds no more items than the limits allow, and no larger
  ones.
* An instruction keeps this, whether it answers or faults. Doubling an item never finds it too
  large. If an item may have a byte, no check finds an item too large or the stack full.
* If items may have 65535 bytes, no machine ever finds an item too large.
* If the limit of steps, of items or of bytes in an item is zero, no request with a witness is
  authorized. -/
theorem memory_within_limits (limits : Limits) (scheme : SignatureScheme) (ledger : Ledger)
    (body : Bytes) :
    (∀ commands,
      ((Machine.new ⟨limits, scheme, body⟩).after commands).bench.WithinLimits limits ∧
        ∀ b ∈ ((Machine.new ⟨limits, scheme, body⟩).after commands).points,
          b.WithinLimits limits) ∧
    (∀ b : Bench, b.WithinLimits limits → ∀ role offset op following,
      let act := Act.instruction ⟨limits, scheme, body⟩ role offset op following
      (act.leaves b).WithinLimits limits ∧
        ∀ fault b', act b = .error fault b' →
          (Operation.ofByte op = .dup → ∀ length limit, fault ≠ .itemTooLarge length limit) ∧
          (1 ≤ limits.maxItemSize.toNat →
            Operation.ofByte op = .checkSignature ∨ Operation.ofByte op = .checkMultisig →
            ¬ fault.OfPush)) ∧
    (65535 ≤ limits.maxItemSize.toNat → ∀ commands length limit,
      ((Machine.new ⟨limits, scheme, body⟩).after commands).fault
        ≠ some (.itemTooLarge length limit)) ∧
    (limits.maxSteps = 0 ∨ limits.maxStackSize = 0 ∨ limits.maxItemSize = 0 →
      ∀ request, request.witnesses ≠ [] →
        (machineAuthorizer limits scheme ledger).authorize request ≠ .ok true) := by
  refine ⟨?_, ?_, ?_, ?_⟩
  · intro commands
    constructor
    · exact Machine.withinLimits_after ⟨limits, scheme, body⟩ commands
    · exact Machine.withinLimits_of_mem_points ⟨limits, scheme, body⟩ commands
  · intro b hb role offset op following act
    constructor
    · have hkeeps : (act.leaves b).WithinLimits (Setting.limits ⟨limits, scheme, body⟩) :=
        Act.withinLimits_instruction hb role offset op following
      exact hkeeps
    intro fault b' hfault
    constructor
    · rintro hdup length limit rfl
      rcases Act.itemTooLarge_of_instruction hb hfault with ⟨hpush, -⟩ | ⟨hcheck, -⟩
      · have hother : isPush op = false := by
          rw [isPush_eq_false_iff, hdup]
          decide
        rw [hother] at hpush
        cases hpush
      · rcases hcheck with hcheck | hcheck
        · cases hdup.symm.trans hcheck
        · cases hdup.symm.trans hcheck
    · intro hsize hcheck
      exact Act.not_ofPush_of_check hcheck hb hsize hfault
  · intro hsize commands length limit hfault
    have hlarge := Machine.itemTooLarge_of_fault hfault
    exact absurd hsize (Nat.not_le_of_lt hlarge)
  · intro hzero request hne
    exact authorize_of_zero scheme ledger hzero hne

/-- A script that doubles an item once too often, and one that names more keys than are allowed, on
a full stack. Neither ends for the size of an item. Without steps the first script is refused. -/
theorem memory_within_limits_full_stack :
    let limits : Limits := ⟨9, 2, 65535, 1⟩
    let stepless : Limits := ⟨0, 2, 65535, 1⟩
    let scheme : SignatureScheme := ⟨fun _ _ _ => .ok ()⟩
    let script : Bytes := [0x52, 0x76, 0x76]
    let m := (Machine.new ⟨limits, scheme, []⟩).after [.load script .code, .execute]
    let b : Bench := Bench.fresh.withItems [[2], [2]]
    let request := (Envelope.ofWitnesses [] [⟨script, []⟩]).toRequest
    m.bench.WithinLimits limits ∧ m.bench ∈ m.points ∧
      m.fault = some (.stackOverflow 2) ∧
      (∀ length limit, m.fault ≠ some (.itemTooLarge length limit)) ∧
      b.WithinLimits limits ∧
      (∃ b', Act.instruction ⟨limits, scheme, []⟩ .code 2 0x76 [] b = .error (.stackOverflow 2) b' ∧
        ∀ length limit, Fault.stackOverflow 2 ≠ .itemTooLarge length limit) ∧
      (∃ b', Act.instruction ⟨limits, scheme, []⟩ .code 2 0xAE [] b
          = .error (.invalidKeyCount 2 1) b' ∧
        ¬ (Fault.invalidKeyCount 2 1).OfPush) ∧
      (machineAuthorizer stepless scheme Ledger.empty).authorize request ≠ .ok true := by
  intro limits stepless scheme script m b request
  obtain ⟨hmachine, hinstruction, hlarge, -⟩ :=
    memory_within_limits limits scheme Ledger.empty []
  obtain ⟨-, -, -, hzero⟩ := memory_within_limits stepless scheme Ledger.empty []
  obtain ⟨hbench, hpoints⟩ := hmachine [.load script .code, .execute]
  have hpoint : m.bench ∈ m.points := List.mem_of_head? m.head?_points_machine
  have hfault : m.fault = some (.stackOverflow 2) := by decide +kernel
  have hb : b.WithinLimits limits := ⟨by decide, by decide⟩
  have hdup : Act.instruction ⟨limits, scheme, []⟩ .code 2 0x76 [] b
      = .error (.stackOverflow 2) b.ticked := rfl
  have hcheck : Act.instruction ⟨limits, scheme, []⟩ .code 2 0xAE [] b
      = .error (.invalidKeyCount 2 1) (b.ticked.withItems [[2]]) := rfl
  refine ⟨hpoints m.bench hpoint, hpoint, hfault, ?_, hb, ⟨_, hdup, ?_⟩, ⟨_, hcheck, ?_⟩, ?_⟩
  · exact hlarge (by decide) [.load script .code, .execute]
  · exact ((hinstruction b hb .code 2 0x76 []).2 _ _ hdup).1 (by decide)
  · exact ((hinstruction b hb .code 2 0xAE []).2 _ _ hcheck).2 (by decide) (by decide)
  · exact hzero (.inl rfl) request (List.cons_ne_nil _ _)

end Countersign
