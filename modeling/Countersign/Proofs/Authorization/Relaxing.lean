import Countersign.Proofs.Authorization.Witness
import Countersign.Proofs.Machine.Relaxing

/-!
# `Countersign.Proofs.Authorization.Relaxing`: larger limits change no decision

Limits are a matter of cost. A machine that halts under some limits, or faults for a reason that is
in its scripts, does the same under any larger ones, and leaves the same bench. So a decision is
the same under larger limits unless it was that some run did not halt
(`execute_and_authorize_of_le`).
-/

set_option autoImplicit false

namespace Countersign

/-- The decision is not that some run did not halt. -/
def Decision.OfHaltedRuns (decision : Decision) : Prop :=
  ∀ index phase, decision ≠ .error (.notHalted index phase)

section
variable {limits limits' : Limits} (hle : limits ≤ limits') {scheme : SignatureScheme}

include hle

/-! ### Machines -/

section
variable {body : Bytes} {segments : List Segment} {b b' : Bench}

/-- A run that comes to its end does so under larger limits. -/
theorem Act.runSegments_of_ok_of_le
    (h : Act.runSegments ⟨limits, scheme, body⟩ segments b = .ok () b') :
    Act.runSegments ⟨limits', scheme, body⟩ segments b = .ok () b' := by
  rw [← Plan.act_runSegments] at h ⊢
  exact Plan.act_of_ok_of_le hle h

/-- A run that meets a permanent fault meets it under larger limits. -/
theorem Act.runSegments_of_error_of_le {fault : Fault}
    (h : Act.runSegments ⟨limits, scheme, body⟩ segments b = .error fault b')
    (hfault : fault.Permanent) :
    Act.runSegments ⟨limits', scheme, body⟩ segments b = .error (fault.under limits') b' := by
  rw [← Plan.act_runSegments] at h ⊢
  exact Plan.act_of_error_of_le hle h hfault

end

/-! ### Decisions -/

section
variable {ledger : Ledger} {request : Request} {index : Nat} {claim : ScriptHash} {w : Witness}

/-- A run that halts is decided on in the same way under larger limits. -/
theorem decisionOfRun_of_le {body : Bytes}
    (h : (decisionOfRun index (runWitness ⟨limits, scheme, body⟩ w)).OfHaltedRuns) :
    decisionOfRun index (runWitness ⟨limits', scheme, body⟩ w)
      = decisionOfRun index (runWitness ⟨limits, scheme, body⟩ w) := by
  cases hrun : runWitness ⟨limits, scheme, body⟩ w with
  | ok _ b =>
      have hrun' : runWitness ⟨limits', scheme, body⟩ w = .ok () b :=
        Act.runSegments_of_ok_of_le hle hrun
      rw [hrun']
  | error fault b =>
      -- A run that faults makes the very decision that is left out.
      rw [hrun] at h
      exact absurd rfl (h index .faulted)

/-- A witness whose run halts is decided on in the same way under larger limits. -/
theorem decision_examine_of_le
    (h : ((machineAuthorizer limits scheme ledger).examine request index claim
      w).decision.OfHaltedRuns) :
    ((machineAuthorizer limits' scheme ledger).examine request index claim w).decision
      = ((machineAuthorizer limits scheme ledger).examine request index claim w).decision := by
  rw [decision_examine] at h
  rw [decision_examine, decision_examine]
  by_cases hcode : w.code = []
  · rw [if_pos hcode, if_pos hcode]
  · by_cases hclaim : ScriptHash.ofScript w.code = claim
    · rw [if_neg hcode, if_neg (not_not_intro hclaim)] at h
      rw [if_neg hcode, if_neg (not_not_intro hclaim), decisionOfRun_of_le hle h, if_neg hcode,
        if_neg (not_not_intro hclaim)]
    · rw [if_neg hcode, if_pos hclaim, if_neg hcode, if_pos hclaim]

/-- So is a row of witnesses, up to the one that is refused. -/
theorem decision_examineAll_of_le {pairs : List (ScriptHash × Witness)}
    (h : ((machineAuthorizer limits scheme ledger).examineAll request index
      pairs).decision.OfHaltedRuns) :
    ((machineAuthorizer limits' scheme ledger).examineAll request index pairs).decision
      = ((machineAuthorizer limits scheme ledger).examineAll request index pairs).decision := by
  -- The decision on the row is that on its first witness, or on the others.
  induction pairs generalizing index with
  | nil => rfl
  | cons pair pairs ih =>
      obtain ⟨claim, w⟩ := pair
      rw [Authorizer.decision_examineAll_cons] at h ⊢
      rw [Authorizer.decision_examineAll_cons]
      cases hfirst : ((machineAuthorizer limits scheme ledger).examine request index claim
          w).decision with
      | ok answer =>
          rw [hfirst] at h
          rw [decision_examine_of_le hle (by rw [hfirst]; exact nofun), hfirst]
          exact ih h
      | error refusal =>
          rw [hfirst] at h
          rw [decision_examine_of_le hle (by rw [hfirst]; exact h), hfirst]

/-- A request is decided on in the same way if no run fails to halt. -/
theorem authorize_of_le
    (h : ((machineAuthorizer limits scheme ledger).authorize request).OfHaltedRuns) :
    (machineAuthorizer limits' scheme ledger).authorize request
      = (machineAuthorizer limits scheme ledger).authorize request := by
  rw [Authorizer.authorize, Authorizer.inspect] at h
  rw [Authorizer.authorize, Authorizer.authorize, Authorizer.inspect, Authorizer.inspect]
  cases hclaims : request.claims with
  | error reason => rfl
  | ok claims =>
      rw [hclaims] at h
      dsimp only at h ⊢
      split
      · rfl
      · rename_i hlength
        rw [if_neg hlength] at h
        exact decision_examineAll_of_le hle h

end

end

/-- Larger limits change nothing but that a run comes further.

* A machine that halts under some limits halts under larger ones and leaves the same bench: the
  same stack, as many steps, the same questions to the scheme.
* A machine that meets a permanent fault meets it again and leaves the same bench. A number of keys
  below one is the only such fault that names a limit, and names the larger one then.
* Every decision is the same, but where it was that some run did not halt. -/
theorem execute_and_authorize_of_le {limits limits' : Limits} (hle : limits ≤ limits')
    (scheme : SignatureScheme) (ledger : Ledger) :
    (∀ body segments,
      let m := ((Machine.new ⟨limits, scheme, body⟩).loadAll segments).execute
      let m' := ((Machine.new ⟨limits', scheme, body⟩).loadAll segments).execute
      (m.phase = .halted → m'.phase = .halted ∧ m'.bench = m.bench) ∧
      (∀ fault, m.fault = some fault → fault.Permanent →
        m'.phase = .faulted ∧ m'.fault = some (fault.under limits') ∧ m'.bench = m.bench)) ∧
    (∀ request, (∀ index phase,
        (machineAuthorizer limits scheme ledger).authorize request
          ≠ .error (.notHalted index phase)) →
      (machineAuthorizer limits' scheme ledger).authorize request
        = (machineAuthorizer limits scheme ledger).authorize request) := by
  refine ⟨fun body segments => ?_, fun request h => authorize_of_le hle h⟩
  intro m m'
  have hm : m = _ := Machine.execute_loadAll ⟨limits, scheme, body⟩ segments
  have hm' : m' = _ := Machine.execute_loadAll ⟨limits', scheme, body⟩ segments
  cases hrun : Act.runSegments ⟨limits, scheme, body⟩ segments.reverse Bench.fresh with
  | ok _ b =>
      rw [hrun] at hm
      rw [Act.runSegments_of_ok_of_le hle hrun] at hm'
      refine ⟨fun _ => ?_, fun fault hfault => ?_⟩
      · rw [hm', hm]
        exact ⟨rfl, rfl⟩
      · rw [hm] at hfault
        cases hfault
  | error fault b =>
      rw [hrun] at hm
      refine ⟨fun hhalted => ?_, fun fault' hfault hpermanent => ?_⟩
      · rw [hm] at hhalted
        cases hhalted
      · rw [hm] at hfault
        cases hfault
        rw [Act.runSegments_of_error_of_le hle hrun hpermanent] at hm'
        rw [hm', hm]
        exact ⟨rfl, rfl, rfl⟩

/-- From limits that are just large enough to the standard ones: a run that halts, one that names no
key, and a request that is authorized. -/
theorem execute_and_authorize_of_le_standard :
    let limits : Limits := ⟨3, 2, 1, 1⟩
    let scheme : SignatureScheme := ⟨fun _ _ _ => .ok ()⟩
    let halting := fun limits =>
      ((Machine.new ⟨limits, scheme, []⟩).loadAll [⟨[0x51, 0x76, 0x75], .code⟩]).execute
    let faulting := fun limits =>
      ((Machine.new ⟨limits, scheme, []⟩).loadAll [⟨[0x51, 0x00, 0xAE], .code⟩]).execute
    let request := (Envelope.ofWitnesses [] [⟨[0x61], [0x51]⟩]).toRequest
    limits ≤ Limits.standard ∧
      ((halting limits).phase = .halted ∧ (halting .standard).phase = .halted ∧
        (halting .standard).bench = (halting limits).bench) ∧
      ((faulting limits).fault = some (.invalidKeyCount 0 1) ∧
        (faulting .standard).fault = some (.invalidKeyCount 0 1024) ∧
        (faulting .standard).bench = (faulting limits).bench) ∧
      (machineAuthorizer limits scheme Ledger.empty).authorize request = .ok true ∧
      (machineAuthorizer .standard scheme Ledger.empty).authorize request = .ok true := by
  intro limits scheme halting faulting request
  have hle : limits ≤ Limits.standard := by decide
  obtain ⟨hmachines, hdecisions⟩ := execute_and_authorize_of_le hle scheme Ledger.empty
  have hhalted : (halting limits).phase = .halted := by decide +kernel
  have hfault : (faulting limits).fault = some (.invalidKeyCount 0 1) := by decide +kernel
  have hpermanent : (Fault.invalidKeyCount 0 1).Permanent := Int.zero_lt_one
  have hdecision : (machineAuthorizer limits scheme Ledger.empty).authorize request = .ok true := by
    have hlone := authorizeLone_eq limits scheme Ledger.empty (w := ⟨[0x61], [0x51]⟩)
      (List.cons_ne_nil _ _) []
    exact hlone.trans (by decide +kernel)
  obtain ⟨hhalted', hbench⟩ := (hmachines [] _).1 hhalted
  obtain ⟨-, hfault', hbench'⟩ := (hmachines [] _).2 _ hfault hpermanent
  have hdecision' := hdecisions request (by rw [hdecision]; exact nofun)
  exact ⟨hle, ⟨hhalted, hhalted', hbench⟩, ⟨hfault, hfault', hbench'⟩, hdecision,
    hdecision'.trans hdecision⟩

end Countersign
