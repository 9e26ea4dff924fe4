import Mathlib.Algebra.GroupWithZero.Nat
import Countersign.Proofs.Authorization.Independence
import Countersign.Proofs.Machine.Binding

/-!
# `Countersign.Proofs.Authorization.Binding`: signatures are about the body, and about nothing else

Every question to the scheme is about the digest of the body. What is attached to a body, claims and
witnesses, has no part in it, so a body can be signed before anything is attached. Besides, a body
may be long, and each engine digests it once at most, and not at all if its script checks no
signature (`questions_about_body`).

`Machine.Bound` says so of one machine, whatever it was made to load and execute. The engines of a
decision are such machines, and `Inspection.bodyReads_eq` adds up what they read.
-/

set_option autoImplicit false

namespace Countersign

/-- How often the body was asked for. -/
def Inspection.bodyReads (inspection : Inspection Machine) : Nat :=
  (inspection.engines.map fun engine => engine.bench.bodyReads).sum

/-- An engine that has asked something has read the body once, and any other has not read it. -/
theorem Inspection.bodyReads_eq {inspection : Inspection Machine}
    (h : ∀ engine ∈ inspection.engines, engine.Bound) :
    inspection.bodyReads
      = inspection.engines.countP fun engine => engine.signatureCalls ≠ [] := by
  rw [bodyReads]
  -- The engines are counted one by one, whatever request they are from.
  generalize inspection.engines = engines at h
  induction engines with
  | nil => rfl
  | cons engine engines ih =>
      obtain ⟨hengine, hengines⟩ := List.forall_mem_cons.mp h
      rw [List.map_cons, List.sum_cons, List.countP_cons, ih hengines, hengine.bodyReads_eq,
        Nat.add_comm]
      by_cases hcalls : engine.signatureCalls = [] <;> simp [hcalls]

section
variable {limits : Limits} {scheme : SignatureScheme} {ledger : Ledger} {request : Request}
  {engine : Machine}
  (h : engine ∈ ((machineAuthorizer limits scheme ledger).inspect request).engines)

include h

/-- What an engine has asked is bound to the digest of its body. -/
theorem bound_of_mem_engines : engine.Bound := by
  obtain ⟨index, w, rfl⟩ := Authorizer.exists_run_of_mem_engines h
  rw [run_eq_after]
  exact Machine.bound_after _ _

/-- The body of every engine is that of the request. -/
theorem setting_of_mem_engines : engine.setting = ⟨limits, scheme, request.body⟩ := by
  obtain ⟨index, w, rfl⟩ := Authorizer.exists_run_of_mem_engines h
  rw [run_eq_after, Machine.setting_after]

end

/-- All questions asked while deciding on a request are about its body. -/
theorem digest_of_mem_signatureCalls {limits : Limits} {scheme : SignatureScheme} {ledger : Ledger}
    {request : Request} {call : SignatureCall}
    (h : call ∈ ((machineAuthorizer limits scheme ledger).inspect request).signatureCalls) :
    call.digest = Sha256.digest request.body := by
  obtain ⟨engine, hengine, hcall⟩ := List.mem_flatMap.mp h
  have hdigest := (bound_of_mem_engines hengine).digest_of_mem_signatureCalls call hcall
  rw [setting_of_mem_engines hengine] at hdigest
  exact hdigest

/-- Every signature is checked against the body, which is read no more often than needed.

* Whatever a machine was made to load and to execute, all its questions were about the digest of its
  body, and it has read the body once if it has asked anything, and else not at all. Within a run
  this holds as well, but that the body is read just before the first question is asked.
* While deciding on a request, all questions are about the digest of its body, whatever its claims
  and witnesses are. The body is read as often as there are engines that ask anything.
* Attaching other witnesses to an envelope changes nothing about this. -/
theorem questions_about_body (limits : Limits) (scheme : SignatureScheme) (ledger : Ledger)
    (body : Bytes) :
    (∀ commands,
      let m := (Machine.new ⟨limits, scheme, body⟩).after commands
      (∀ call ∈ m.signatureCalls, call.digest = Sha256.digest body) ∧
        m.bench.bodyReads = (if m.signatureCalls = [] then 0 else 1) ∧
        ∀ p ∈ m.points, (∀ call ∈ p.calls, call.digest = Sha256.digest body) ∧
          p.bodyReads ≤ 1 ∧ (p.calls ≠ [] → p.bodyReads = 1)) ∧
    (∀ claims witnesses,
      let found := (machineAuthorizer limits scheme ledger).inspect ⟨claims, witnesses, body⟩
      (∀ call ∈ found.signatureCalls, call.digest = Sha256.digest body) ∧
        found.bodyReads = found.engines.countP fun engine => engine.signatureCalls ≠ []) ∧
    (∀ (e : Envelope) witnesses,
      let found := (machineAuthorizer limits scheme ledger).inspect
        (e.withWitnesses witnesses).toRequest
      ∀ call ∈ found.signatureCalls, call.digest = Sha256.digest e.body) := by
  refine ⟨?_, ?_, ?_⟩
  · intro commands m
    have hbound : m.Bound := Machine.bound_after ⟨limits, scheme, body⟩ commands
    have hdigest := hbound.digest_of_mem_signatureCalls
    rw [Machine.setting_after] at hdigest
    refine ⟨hdigest, hbound.bodyReads_eq, ?_⟩
    -- Inside a run a check may have begun, so the stage is not known.
    intro p hp
    obtain ⟨stage, hstage⟩ := Machine.bound_of_mem_points _ commands p hp
    exact ⟨hstage.digest_of_mem_calls, hstage.bodyReads_le, hstage.bodyReads_of_calls⟩
  · intro claims witnesses found
    refine ⟨?_, ?_⟩
    · intro call hcall
      have hdigest := digest_of_mem_signatureCalls hcall
      exact hdigest
    · have hbound : ∀ engine ∈ found.engines, engine.Bound := fun engine => bound_of_mem_engines
      exact Inspection.bodyReads_eq hbound
  · -- Other witnesses, other claims, and the same body.
    intro e witnesses found call hcall
    have hdigest := digest_of_mem_signatureCalls hcall
    exact hdigest

/-- A check of one signature against two keys, and a witness that checks nothing. Deciding on both
takes two questions and reads the body once. -/
theorem questions_about_body_two_keys :
    let scheme : SignatureScheme :=
      ⟨fun publicKey _ _ => if publicKey = [8] then .ok () else .error .mismatch⟩
    let body : Bytes := [1, 2, 3]
    let checking : Witness := ⟨[0x51, 0x01, 0x07, 0x01, 0x08, 0x52, 0xAE], [0x00]⟩
    let commands : List Command :=
      [.load checking.code .code, .load checking.parameter .parameter, .execute]
    let m := (Machine.new ⟨.standard, scheme, body⟩).after commands
    let e := Envelope.ofWitnesses body [checking, ⟨[0x51], []⟩]
    let found := (machineAuthorizer .standard scheme Ledger.empty).inspect e.toRequest
    (m.signatureCalls.length = 2 ∧ m.bench.bodyReads = 1 ∧
      ∀ call ∈ m.signatureCalls, call.digest = Sha256.digest body) ∧
    (found.engines.length = 2 ∧ found.signatureCalls.length = 2 ∧ found.bodyReads = 1 ∧
      ∀ call ∈ found.signatureCalls, call.digest = Sha256.digest body) := by
  intro scheme body checking commands m e found
  obtain ⟨hmachine, hrequest, -⟩ := questions_about_body .standard scheme Ledger.empty body
  obtain ⟨hdigest, hreads, -⟩ := hmachine commands
  obtain ⟨hdigests, hcount⟩ := hrequest e.toRequest.claims e.witnesses
  have hcalls : m.signatureCalls.length = 2 := by decide +kernel
  have hasked : m.signatureCalls ≠ [] := by
    intro hnil
    rw [hnil] at hcalls
    cases hcalls
  have hengines : (found.engines.countP fun engine => engine.signatureCalls ≠ []) = 1 := by
    decide +kernel
  exact ⟨⟨hcalls, hreads.trans (if_neg hasked), hdigest⟩,
    by decide +kernel, by decide +kernel, hcount.trans hengines, hdigests⟩

end Countersign
