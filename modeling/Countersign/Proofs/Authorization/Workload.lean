import Countersign.Proofs.Authorization.Witness
import Countersign.Proofs.Machine.Spending

/-!
# `Countersign.Proofs.Authorization.Workload`: how much work a machine can be made to do

Checking a signature is what is expensive, and one multiple check may try as many keys as there
are. `work_within_budget` bounds it all the same: whatever a machine is made to load and execute,
at every point of its run the items on its stack and the questions that it has asked are together
no more than its steps, so the limit of steps bounds the questions. The limit of keys plays no part
in this.

The invariant is `Bench.WithinBudget`. `Machine.within_after` keeps it over rows of commands,
and within a run it is what the prices of `Tariff.work` and `Tariff.steps` come to.
-/

set_option autoImplicit false

namespace Countersign

/-- The script that a command loads. -/
def Command.script : Command → Bytes
  | .load script _ => script
  | .execute => []

/-- How many bytes several commands load. -/
def loadedBytes (commands : List Command) : Nat :=
  (commands.flatMap Command.script).length

/-- The work on a bench is paid for by its steps, and the steps by `bytes`. -/
structure Bench.WithinBudget (limits : Limits) (bytes : Nat) (b : Bench) : Prop where
  work : b.stack.depth + b.calls.length ≤ min b.steps limits.maxSteps.toNat
  steps : b.steps ≤ limits.maxSteps.toNat + 1
  bytes : b.steps ≤ bytes

/-- A larger budget is enough as well. -/
theorem Bench.WithinBudget.mono {limits : Limits} {bytes bytes' : Nat} {b : Bench}
    (h : b.WithinBudget limits bytes) (hle : bytes ≤ bytes') : b.WithinBudget limits bytes' :=
  ⟨h.work, h.steps, Nat.le_trans h.bytes hle⟩

/-- An empty bench has cost nothing. -/
theorem Bench.withinBudget_fresh (limits : Limits) (bytes : Nat) :
    Bench.fresh.WithinBudget limits bytes :=
  ⟨Nat.zero_le _, Nat.zero_le _, Nat.zero_le _⟩

/-- Each command adds the bytes that it loads. -/
theorem loadedBytes_concat (commands : List Command) (command : Command) :
    loadedBytes (commands ++ [command]) = loadedBytes commands + command.script.length := by
  rw [loadedBytes, List.flatMap_append, List.length_append, List.flatMap_singleton, loadedBytes]

/-- A run stays within the budget that its limits and its bytes give it. -/
theorem Plan.withinBudget_of_mem_points {setting : Setting} {segments : List Segment} {p : Bench}
    (hp : p ∈ (Plan.runSegments segments).points setting Bench.fresh) :
    p.WithinBudget setting.limits (bytesIn segments) := by
  have hwork : Affordable .work 0 (runSegments segments) fun _ => 0 :=
    affordable_runSegments .work 0 segments
  have hsteps := affordable_runSegments .steps 0 segments
  obtain ⟨hbudget, hlimit⟩ := work_of_mem_points hwork (Nat.zero_le _) (Nat.zero_le _) hp
  obtain ⟨-, hbytes⟩ := steps_of_mem_points hsteps hp
  refine ⟨hbudget, hlimit, ?_⟩
  have hprice : Tariff.steps.step = 1 := rfl
  have hfresh : Bench.fresh.steps = 0 := rfl
  rw [hprice, hfresh, Nat.mul_one] at hbytes
  omega

namespace Machine

/-- What is known of a machine after it was given commands: as long as it has not run, its bench is
fresh and holds nothing but what was loaded. -/
structure Within (setting : Setting) (bytes : Nat) (m : Machine) : Prop where
  setting_eq : m.setting = setting
  fresh : m.phase = .running → m.bench = Bench.fresh
  segments : m.phase = .running → bytesIn m.segments ≤ bytes
  bench : m.bench.WithinBudget setting.limits bytes

/-- No run of a machine leaves its budget on the way. -/
theorem Within.points {setting : Setting} {bytes : Nat} {m : Machine} (h : m.Within setting bytes) :
    ∀ p ∈ m.points, p.WithinBudget setting.limits bytes := by
  intro p hp
  by_cases hphase : m.phase = .running
  · rw [points_of_running hphase, h.setting_eq, h.fresh hphase] at hp
    exact (Plan.withinBudget_of_mem_points hp).mono (h.segments hphase)
  · rw [points_of_ne_running hphase, List.mem_singleton] at hp
    exact hp ▸ h.bench

/-- A command keeps a machine within its budget, with the bytes that it loads added. -/
theorem Within.obey {setting : Setting} {bytes : Nat} {m : Machine} (h : m.Within setting bytes)
    (command : Command) : (m.obey command).Within setting (bytes + command.script.length) := by
  cases command with
  | load script role =>
      refine ⟨h.setting_eq, h.fresh, fun hphase => ?_, h.bench.mono (Nat.le_add_right _ _)⟩
      have hsegments := h.segments hphase
      show bytesIn (⟨script, role⟩ :: m.segments) ≤ bytes + script.length
      rw [bytesIn_cons, Nat.add_comm]
      exact Nat.add_le_add_right hsegments script.length
  | execute =>
      -- The bench that is left is the last point of the run, or the one there was.
      have hdone := m.phase_execute_ne_running
      have hlast : m.execute.bench ∈ m.points := List.mem_of_getLast? m.getLast?_points_machine
      exact ⟨m.setting_execute.trans h.setting_eq, fun hphase => absurd hphase hdone,
        fun hphase => absurd hphase hdone, h.points _ hlast⟩

/-- No row of commands makes a machine leave its budget. -/
theorem within_after (setting : Setting) (commands : List Command) :
    ((Machine.new setting).after commands).Within setting (loadedBytes commands) := by
  -- The latest command comes last, so the row is taken apart from its end.
  induction commands using List.reverseRecOn with
  | nil =>
      exact ⟨rfl, fun _ => rfl, fun _ => Nat.le_refl _, Bench.withinBudget_fresh _ _⟩
  | append_singleton commands command ih =>
      rw [after_concat, loadedBytes_concat]
      exact ih.obey command

end Machine

/-- The machine of a witness asks no more questions than the limit of steps. -/
theorem length_signatureCalls_run_le (limits : Limits) (scheme : SignatureScheme) (ledger : Ledger)
    (request : Request) (index : Nat) (w : Witness) :
    ((machineAuthorizer limits scheme ledger).run request index w).signatureCalls.length
      ≤ limits.maxSteps.toNat := by
  have hwithin := Machine.within_after ⟨limits, scheme, request.body⟩ w.commands
  have hwork : _ ≤ min _ limits.maxSteps.toNat := hwithin.bench.work
  rw [run_eq_after, Machine.signatureCalls, List.length_reverse]
  exact Nat.le_trans (Nat.le_add_left _ _) (Nat.le_trans hwork (Nat.min_le_right _ _))

/-- Work is bounded by steps.

* Whatever a machine is made to load and to execute, and at whatever point of a run: the items on
  its stack and the questions that it has asked are together no more than its steps and no more than
  the limit of steps. The limit is exceeded by one step at most, and there are no more steps than
  bytes loaded.
* So no engine that decides on a request asks more questions than the limit of steps, however many
  keys its script names. -/
theorem work_within_budget (limits : Limits) (scheme : SignatureScheme) (ledger : Ledger)
    (body : Bytes) :
    (∀ commands, ∀ b ∈ ((Machine.new ⟨limits, scheme, body⟩).after commands).points,
      b.stack.depth + b.calls.length ≤ min b.steps limits.maxSteps.toNat ∧
        b.steps ≤ limits.maxSteps.toNat + 1 ∧ b.steps ≤ loadedBytes commands) ∧
    (∀ request, ∀ engine ∈ ((machineAuthorizer limits scheme ledger).inspect request).engines,
      engine.signatureCalls.length ≤ limits.maxSteps.toNat) := by
  refine ⟨fun commands b hb => ?_, fun request engine hengine => ?_⟩
  · have h := (Machine.within_after ⟨limits, scheme, body⟩ commands).points b hb
    exact ⟨h.work, h.steps, h.bytes⟩
  · obtain ⟨index, w, rfl⟩ := Authorizer.exists_run_of_mem_engines hengine
    exact length_signatureCalls_run_le limits scheme ledger request index w

/-- A check of one signature against two keys, and an instruction after it that there is no step
for. The bench that is left holds one item, after two questions and seven of six steps. -/
theorem work_within_budget_two_keys :
    let limits : Limits := ⟨6, 5, 1, 2⟩
    let scheme : SignatureScheme :=
      ⟨fun publicKey _ _ => if publicKey = [8] then .ok () else .error .mismatch⟩
    let script : Bytes := [0x00, 0x51, 0x01, 0x07, 0x01, 0x08, 0x52, 0xAE, 0x76]
    let m := (Machine.new ⟨limits, scheme, []⟩).after [.load script .code]
    let a := machineAuthorizer limits scheme Ledger.empty
    let request := (Envelope.ofWitnesses [] [⟨script, []⟩]).toRequest
    let engine := a.run request 0 ⟨script, []⟩
    m.execute.bench ∈ m.points ∧ m.execute.bench.stack.depth = 1 ∧
      m.execute.bench.calls.length = 2 ∧ m.execute.bench.steps = 7 ∧
      (1 + 2 ≤ min 7 6 ∧ 7 ≤ 6 + 1 ∧ 7 ≤ loadedBytes [.load script .code]) ∧
      engine ∈ (a.inspect request).engines ∧ engine.signatureCalls.length ≤ 6 := by
  intro limits scheme script m a request engine
  have hpoint : m.execute.bench ∈ m.points := List.mem_of_getLast? m.getLast?_points_machine
  have hdepth : m.execute.bench.stack.depth = 1 := by decide +kernel
  have hcalls : m.execute.bench.calls.length = 2 := by decide +kernel
  have hsteps : m.execute.bench.steps = 7 := by decide +kernel
  have hengine : engine ∈ (a.inspect request).engines := by
    have hsingle : a.inspect request = _ := Authorizer.inspect_of_single rfl rfl
    rw [hsingle, Authorizer.engines_examine_of_claim a request 0 (List.cons_ne_nil _ _) rfl]
    exact List.mem_singleton_self engine
  obtain ⟨hmachine, hrequest⟩ := work_within_budget limits scheme Ledger.empty []
  have hbounds := hmachine [.load script .code] m.execute.bench hpoint
  rw [hdepth, hcalls, hsteps] at hbounds
  exact ⟨hpoint, hdepth, hcalls, hsteps, hbounds, hengine, hrequest request engine hengine⟩

end Countersign
