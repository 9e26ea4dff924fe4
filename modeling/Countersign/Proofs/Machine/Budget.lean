import Countersign.Proofs.Machine.Life
import Countersign.Proofs.Machine.Stepping

/-!
# `Countersign.Proofs.Machine.Budget`: a limit of steps cuts a run off

The limit of steps does not change what a run does, only how far it comes. Take a run that its limit
cannot stop, as there are no more bytes than steps, and the same run with any other `budget` of
steps. The second one ends as the first does, or it stops where the first has executed `budget`
instructions (`Machine.execute_of_budget`). It stops before the next instruction is looked at, so it
does not matter what that would have done.

`CutOff` says this of what is left of a run. An instruction that both runs execute keeps it
(`CutOff.of_executed`), so it holds of every run (`cutOff`).
-/

set_option autoImplicit false

namespace Countersign

/-- The setting with another limit of steps. -/
def Setting.withSteps (setting : Setting) (budget : UInt64) : Setting :=
  { setting with limits := setting.limits.set .steps budget }

namespace Act

/-- With a limit of `budget` steps, what is left ends as it does in this setting, or stops where `n`
more instructions have been executed in this setting. -/
structure CutOff (setting : Setting) (budget : UInt64) (n : Nat) (remainders : List Remainder)
    (b : Bench) : Prop where
  ends : ((runRemainders setting remainders).leaves b).steps ≤ budget.toNat →
    runRemainders (setting.withSteps budget) remainders b = runRemainders setting remainders b
  stops : budget.toNat < ((runRemainders setting remainders).leaves b).steps →
    ∃ left b', firstInstructions setting n remainders b = .ok left b' ∧ b'.steps = budget.toNat ∧
      runRemainders (setting.withSteps budget) remainders b
        = .error (.stepLimit budget.toNat) b'.ticked

variable {setting : Setting} {budget : UInt64} {n : Nat} {remainders : List Remainder}
  {i : Fetched} {b : Bench}

/-! ### One instruction -/

/-- No instruction looks at the limit of steps once it has begun. -/
theorem executeFetched_withSteps (hlimit : b.steps < setting.limits.maxSteps.toNat)
    (hbudget : b.steps < budget.toNat) :
    executeFetched (setting.withSteps budget) i b = executeFetched setting i b := by
  have htick : tick (setting.withSteps budget).limits b = .ok () b.ticked := tick_of_lt hbudget
  have hinstruction : instruction (setting.withSteps budget) i.role i.offset i.op i.following b
      = instruction setting i.role i.offset i.op i.following b := by
    -- Past the tick, the two settings are only asked for limits in which they agree.
    rw [instruction, instruction, bind_of_ok htick, bind_of_ok (tick_of_lt hlimit)]
    rfl
  cases h : instruction setting i.role i.offset i.op i.following b with
  | ok width b' =>
      rw [executeFetched, executeFetched, bind_of_ok (hinstruction.trans h), bind_of_ok h]
  | error fault b' =>
      rw [executeFetched, executeFetched, bind_of_error (hinstruction.trans h), bind_of_error h]

/-- Without steps left, nothing of an instruction is looked at. -/
theorem executeFetched_of_spent (h : setting.limits.maxSteps.toNat ≤ b.steps) (i : Fetched) :
    executeFetched setting i b = .error (.stepLimit setting.limits.maxSteps.toNat) b.ticked := by
  rw [executeFetched, instruction]
  exact bind_of_error (bind_of_error (tick_of_le h))

/-! ### What is left of a run -/

/-- A run that is over is the same with any limit. -/
theorem CutOff.of_over (hfetch : fetch? remainders = none) (hle : b.steps ≤ budget.toNat) :
    CutOff setting budget n remainders b := by
  have hover (setting : Setting) : runRemainders setting remainders b = .ok () b := by
    rw [runRemainders_of_none setting hfetch]
    rfl
  refine ⟨fun _ => (hover _).trans (hover _).symm, fun hlt => ?_⟩
  rw [leaves_of_ok (hover setting)] at hlt
  exact absurd hlt (Nat.not_lt_of_le hle)

/-- Where the budget is spent, the next instruction is refused. -/
theorem CutOff.of_spent (hfetch : fetch? remainders = some i) (hspent : b.steps = budget.toNat) :
    CutOff setting budget 0 remainders b := by
  have hrefused : executeFetched (setting.withSteps budget) i b
      = .error (.stepLimit budget.toNat) b.ticked :=
    executeFetched_of_spent (Nat.le_of_eq hspent.symm) i
  have hlonger := steps_lt_leaves_runRemainders setting hfetch b
  refine ⟨fun hle => by omega, fun _ => ⟨remainders, b, rfl, hspent, ?_⟩⟩
  rw [runRemainders_of_some _ hfetch, bind_of_error hrefused]

/-- An instruction that both runs execute leaves them to be compared from there. -/
theorem CutOff.of_executed (hfetch : fetch? remainders = some i)
    (hlimit : b.steps < setting.limits.maxSteps.toNat) (hbudget : b.steps < budget.toNat)
    (hrest : ∀ left b', executeFetched setting i b = .ok left b' →
      CutOff setting budget n left b') : CutOff setting budget (n + 1) remainders b := by
  have hsame : executeFetched (setting.withSteps budget) i b = executeFetched setting i b :=
    executeFetched_withSteps hlimit hbudget
  have hwhole := runRemainders_of_some setting hfetch
  have hcut := runRemainders_of_some (setting.withSteps budget) hfetch
  cases hi : executeFetched setting i b with
  | ok left b' =>
      obtain ⟨hends, hstops⟩ := hrest left b' hi
      constructor
      · rwa [hwhole, hcut, leaves_bind_of_ok hi, bind_of_ok hi, bind_of_ok (hsame.trans hi)]
      · rwa [hwhole, hcut, leaves_bind_of_ok hi, bind_of_ok (hsame.trans hi), firstInstructions,
          nextInstruction_of_some setting hfetch, bind_of_ok hi]
  | error fault b' =>
      have hsteps := steps_executeFetched_of_error hi
      constructor
      · intro _
        rw [hwhole, hcut, bind_of_error hi, bind_of_error (hsame.trans hi)]
      · intro hlt
        rw [hwhole, leaves_bind_of_error hi] at hlt
        omega

/-- With `n` steps left of the budget, the run is cut off after `n` instructions. -/
theorem cutOff (hn : b.steps + n = budget.toNat)
    (hbytes : b.steps + bytesLeft remainders ≤ setting.limits.maxSteps.toNat) :
    CutOff setting budget n remainders b := by
  induction n generalizing remainders b with
  | zero =>
      cases hfetch : fetch? remainders with
      | none => exact .of_over hfetch (Nat.le_of_eq hn)
      | some i => exact .of_spent hfetch hn
  | succ n ih =>
      cases hfetch : fetch? remainders with
      | none => exact .of_over hfetch (by omega)
      | some i =>
          -- There is a byte left, and with it a step under the limit of the whole run.
          have hleft := bytesLeft_of_fetch hfetch
          refine .of_executed hfetch (by omega) (by omega) fun left b' hi => ?_
          have hsteps := steps_executeFetched_of_ok hi
          have hshorter := bytesLeft_of_executeFetched hi
          exact ih (by omega) (by omega)

end Act

namespace Machine

/-- A limit of steps cuts a run off. Beside a machine with at least as many steps as bytes, take one
with any other `budget` of steps.

* If the first one needs no more than the budget, both end in the same way: in the same phase, for
  the same fault, with the same stack, as many steps and the same questions to the scheme.
* If it needs more, take the bench that its first `budget` instructions leave, from which it goes on
  to its end. There the second one is refused the next instruction. It counts that step, and has
  the same stack otherwise and has asked the same questions. -/
theorem execute_of_budget {limits : Limits} {segments : List Segment}
    (hbytes : bytesIn segments ≤ limits.maxSteps.toNat)
    (scheme : SignatureScheme) (body : Bytes) (budget : UInt64) :
    let m := ((Machine.new ⟨limits, scheme, body⟩).loadAll segments).execute
    let m' := ((Machine.new ⟨limits.set .steps budget, scheme, body⟩).loadAll segments).execute
    (m.bench.steps ≤ budget.toNat →
      m'.phase = m.phase ∧ m'.fault = m.fault ∧ m'.bench = m.bench) ∧
    (budget.toNat < m.bench.steps →
      ∃ left b, Act.firstInstructions ⟨limits, scheme, body⟩ budget.toNat
          (segments.reverse.map Segment.remainder) Bench.fresh = .ok left b ∧
        (Act.runRemainders ⟨limits, scheme, body⟩ left).leaves b = m.bench ∧
        m'.phase = .faulted ∧ m'.fault = some (.stepLimit budget.toNat) ∧
        m'.bench = b.ticked ∧ m'.bench.steps = budget.toNat + 1) := by
  intro m m'
  have hm : m = _ := execute_loadAll ⟨limits, scheme, body⟩ segments
  have hm' : m' = _ := execute_loadAll ⟨limits.set .steps budget, scheme, body⟩ segments
  have hcut : Act.CutOff ⟨limits, scheme, body⟩ budget budget.toNat
      (segments.reverse.map Segment.remainder) Bench.fresh := by
    -- The segments run in the opposite order, but have as many bytes.
    refine Act.cutOff (Nat.zero_add _) ?_
    rw [bytesLeft_remainders, bytesIn_reverse]
    exact Nat.le_trans (Nat.le_of_eq (Nat.zero_add _)) hbytes
  obtain ⟨hends, hstops⟩ := hcut
  rw [Act.runRemainders_remainders, Act.runRemainders_remainders] at hends hstops
  have hbench : m.bench
      = (Act.runSegments ⟨limits, scheme, body⟩ segments.reverse).leaves Bench.fresh :=
    bench_execute_loadAll _ segments
  rw [← hbench] at hends hstops
  constructor
  · intro hle
    have hsame : Act.runSegments ⟨limits.set .steps budget, scheme, body⟩ segments.reverse
        Bench.fresh = Act.runSegments ⟨limits, scheme, body⟩ segments.reverse Bench.fresh :=
      hends hle
    rw [hm', hm, hsame]
    cases Act.runSegments ⟨limits, scheme, body⟩ segments.reverse Bench.fresh <;>
      exact ⟨rfl, rfl, rfl⟩
  · intro hlt
    obtain ⟨left, b, hfirst, hsteps, hstopped⟩ := hstops hlt
    have hrun : Act.runSegments ⟨limits.set .steps budget, scheme, body⟩ segments.reverse
        Bench.fresh = .error (.stepLimit budget.toNat) b.ticked := hstopped
    have hgoesOn : (Act.runRemainders ⟨limits, scheme, body⟩ left).leaves b = m.bench := by
      rw [Act.leaves_of_firstInstructions hfirst, Act.runRemainders_remainders, hbench]
    rw [hrun] at hm'
    rw [hm']
    exact ⟨left, b, hfirst, hgoesOn, rfl, rfl, rfl, congrArg (· + 1) hsteps⟩

/-- A parameter that pushes two items, and a code that drops three. With five steps it comes to the
third drop, which there is no item for. With four steps it is stopped there, whatever that
instruction is. -/
theorem execute_of_budget_before_underflow :
    let scheme : SignatureScheme := ⟨fun _ _ _ => .error .mismatch⟩
    let segments : List Segment := [⟨[0x75, 0x75, 0x75], .code⟩, ⟨[0x51, 0x52], .parameter⟩]
    let under := fun limits => ((Machine.new ⟨limits, scheme, []⟩).loadAll segments).execute
    let limits : Limits := ⟨9, 2, 1, 1⟩
    bytesIn segments ≤ limits.maxSteps.toNat ∧
      (under limits).fault = some (.stackUnderflow 0x75) ∧ (under limits).bench.steps = 5 ∧
      (under (limits.set .steps 5)).fault = some (.stackUnderflow 0x75) ∧
      (under (limits.set .steps 5)).bench = (under limits).bench ∧
      (under (limits.set .steps 4)).fault = some (.stepLimit 4) ∧
      (under (limits.set .steps 4)).bench.steps = 5 ∧
      ∃ left b, Act.firstInstructions ⟨limits, scheme, []⟩ 4
          (segments.reverse.map Segment.remainder) Bench.fresh = .ok left b ∧
        (under (limits.set .steps 4)).bench = b.ticked := by
  intro scheme segments under limits
  have hbytes : bytesIn segments ≤ limits.maxSteps.toNat := by decide
  have hfault : (under limits).fault = some (.stackUnderflow 0x75) := by decide +kernel
  have hsteps : (under limits).bench.steps = 5 := by decide +kernel
  obtain ⟨hends, -⟩ := execute_of_budget hbytes scheme [] 5
  obtain ⟨-, hstops⟩ := execute_of_budget hbytes scheme [] 4
  obtain ⟨-, hfault', hbench⟩ := hends (Nat.le_of_eq hsteps)
  obtain ⟨left, b, hfirst, -, -, hlimit, hstopped, hsteps'⟩ :=
    hstops (Nat.lt_of_lt_of_eq (by decide) hsteps.symm)
  exact ⟨hbytes, hfault, hsteps, hfault'.trans hfault, hbench, hlimit, hsteps', left, b, hfirst,
    hstopped⟩

end Machine

end Countersign
