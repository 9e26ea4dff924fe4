import Countersign.Proofs.Authorization.Correspondence
import Countersign.Proofs.Authorization.Independence
import Countersign.Proofs.Machine.Answering
import Countersign.Proofs.Machine.SideBySide

/-!
# `Countersign.Proofs.Authorization.Discretion`: what a decision shows of the scheme

A script can do much with the answer to a check: push it, count with it, take it for a key. But the
answer is all that it gets. Which body was signed, how the scheme came to its answer, and what it
has against a signature, all this stays outside.

`authorize_of_same_acceptance` says so of any two bodies and any two schemes that accept the same
signatures, each about its own body: no decision tells them apart, and no question. In particular a
malformed key is never told from a signature that does not match, and neither of them is a fault.
-/

set_option autoImplicit false

namespace Countersign

/-- The scheme that accepts the same signatures, and says no more of the others than that they do
not match. -/
def SignatureScheme.reticent (scheme : SignatureScheme) : SignatureScheme :=
  ⟨fun publicKey digest signature =>
    if scheme.accepts publicKey digest signature then .ok () else .error .mismatch⟩

/-- The reticent scheme accepts the same signatures. -/
theorem SignatureScheme.reticent_verify_iff {scheme : SignatureScheme}
    {publicKey digest signature : Bytes} :
    scheme.verify publicKey digest signature = .ok () ↔
      scheme.reticent.verify publicKey digest signature = .ok () := by
  rw [← accepts_iff]
  show _ ↔ (if scheme.accepts publicKey digest signature then _ else _) = _
  cases scheme.accepts publicKey digest signature <;> simp

/-- Settings are alike if their schemes accept the same signatures, each over its own body. -/
theorem Setting.alike_of_verify (limits : Limits) {scheme scheme' : SignatureScheme}
    {body body' : Bytes}
    (h : ∀ publicKey signature, scheme.verify publicKey (Sha256.digest body) signature = .ok () ↔
      scheme'.verify publicKey (Sha256.digest body') signature = .ok ()) :
    Setting.Alike ⟨limits, scheme, body⟩ ⟨limits, scheme', body'⟩ := by
  refine ⟨rfl, fun publicKey signature => Bool.eq_iff_iff.mpr ?_⟩
  rw [SignatureScheme.accepts_iff, SignatureScheme.accepts_iff]
  exact h publicKey signature

/-- All that an authorizer asks an engine about is the same for alike machines. -/
theorem Machine.Alike.sameReport {m m' : Machine} (h : m.Alike m') (limits : Limits)
    (scheme scheme' : SignatureScheme) (ledger : Ledger) :
    Authorizer.SameReport (machineAuthorizer limits scheme ledger)
      (machineAuthorizer limits scheme' ledger) m m' :=
  ⟨h.phase, h.depth, h.result⟩

/-- Engines that are alike have asked the same, the digests left aside. -/
theorem signatureCalls_of_alike_engines {found found' : Inspection Machine}
    (h : List.Forall₂ Machine.Alike found.engines found'.engines) :
    found.signatureCalls.map SignatureCall.undigested
      = found'.signatureCalls.map SignatureCall.undigested := by
  rw [Inspection.signatureCalls, Inspection.signatureCalls]
  generalize found.engines = engines, found'.engines = engines' at h
  induction h with
  | nil => rfl
  | cons hengine _ ih =>
      rw [List.flatMap_cons, List.flatMap_cons, List.map_append, List.map_append, ih,
        hengine.signatureCalls]

section
variable (limits : Limits) {scheme scheme' : SignatureScheme} (ledger : Ledger) {body body' : Bytes}
  (h : ∀ publicKey signature, scheme.verify publicKey (Sha256.digest body) signature = .ok () ↔
    scheme'.verify publicKey (Sha256.digest body') signature = .ok ())

include h

/-- Every witness is its own counterpart over the other body. -/
theorem counterpart_of_verify (claims : Except String (List ScriptHash)) (witnesses : List Witness)
    (w : Witness) :
    Authorizer.Counterpart Machine.Alike (machineAuthorizer limits scheme ledger)
      (machineAuthorizer limits scheme' ledger) ⟨claims, witnesses, body⟩
      ⟨claims, witnesses, body'⟩ w w := by
  constructor
  case code => rfl
  case run =>
    intro index
    rw [run_eq_after, run_eq_after]
    exact (Machine.alike_new (Setting.alike_of_verify limits h)).after w.commands

/-- Schemes that accept the same signatures lead to the same findings. -/
theorem inspect_of_verify (claims : Except String (List ScriptHash)) (witnesses : List Witness) :
    Authorizer.SameFindings Machine.Alike
      ((machineAuthorizer limits scheme ledger).inspect ⟨claims, witnesses, body⟩)
      ((machineAuthorizer limits scheme' ledger).inspect ⟨claims, witnesses, body'⟩) := by
  refine Authorizer.inspect_of_counterparts
    (fun engine engine' halike => halike.sameReport limits scheme scheme' ledger) rfl ?_
  exact List.forall₂_same.mpr fun w _ => counterpart_of_verify limits ledger h claims witnesses w

end

/-- A decision depends on the scheme and on the body only through which signatures are accepted.

* If two schemes accept the same signatures, each about its own body, then requests that differ in
  the body alone are decided on in the same way, after the same questions but for the digest.
* The same holds of machines, whatever they are made to load and to execute: they come equally far,
  with the same fault, the same stack and as many steps.
* It does not matter what a scheme has against a signature. It might as well call everything that it
  does not accept a mismatch.
* No rejection is a fault. An instruction that faults has asked nothing, or the answer to the last
  question was yes and may not be an item. -/
theorem authorize_of_same_acceptance (limits : Limits) {scheme scheme' : SignatureScheme}
    (ledger : Ledger) {body body' : Bytes}
    (h : ∀ publicKey signature, scheme.verify publicKey (Sha256.digest body) signature = .ok () ↔
      scheme'.verify publicKey (Sha256.digest body') signature = .ok ()) :
    let a := machineAuthorizer limits scheme ledger
    let a' := machineAuthorizer limits scheme' ledger
    (∀ claims witnesses,
      a.authorize ⟨claims, witnesses, body⟩ = a'.authorize ⟨claims, witnesses, body'⟩ ∧
        (a.inspect ⟨claims, witnesses, body⟩).signatureCalls.map SignatureCall.undigested
          = (a'.inspect ⟨claims, witnesses, body'⟩).signatureCalls.map SignatureCall.undigested) ∧
    (∀ commands,
      let m := (Machine.new ⟨limits, scheme, body⟩).after commands
      let m' := (Machine.new ⟨limits, scheme', body'⟩).after commands
      m.phase = m'.phase ∧ m.fault = m'.fault ∧ m.bench.stack = m'.bench.stack ∧
        m.bench.steps = m'.bench.steps ∧
        m.signatureCalls.map SignatureCall.undigested
          = m'.signatureCalls.map SignatureCall.undigested) ∧
    (∀ request, (machineAuthorizer limits scheme.reticent ledger).authorize request
      = a.authorize request) ∧
    (∀ commands, ∀ b ∈ ((Machine.new ⟨limits, scheme, body⟩).after commands).points,
      ∀ role offset op following fault b',
        Act.instruction ⟨limits, scheme, body⟩ role offset op following b = .error fault b' →
        b'.asked = b.asked ∨
          fault = .itemTooLarge 1 0 ∧ limits.maxItemSize.toNat = 0 ∧ b'.LastAccepted) := by
  intro a a'
  refine ⟨?_, ?_, ?_, ?_⟩
  · intro claims witnesses
    obtain ⟨hdecision, hengines⟩ := inspect_of_verify limits ledger h claims witnesses
    exact ⟨hdecision, signatureCalls_of_alike_engines hengines⟩
  · intro commands m m'
    have hnew := Machine.alike_new (Setting.alike_of_verify limits h)
    have halike : m.Alike m' := hnew.after commands
    exact ⟨halike.phase, halike.fault, halike.bench.stack, halike.bench.steps,
      halike.signatureCalls⟩
  · -- The reticent scheme is one of those that accept the same, over the same body.
    rintro ⟨claims, witnesses, body⟩
    have hreticent (publicKey signature : Bytes) :
        scheme.verify publicKey (Sha256.digest body) signature = .ok () ↔
          scheme.reticent.verify publicKey (Sha256.digest body) signature = .ok () :=
      SignatureScheme.reticent_verify_iff
    exact (inspect_of_verify limits ledger hreticent claims witnesses).decision.symm
  · intro commands b hb role offset op following fault b' hfault
    have hroom := Machine.depth_le_of_mem_points ⟨limits, scheme, body⟩ commands b hb
    exact Act.asked_of_instruction_error hroom hfault

/-- A scheme that knows the empty key only, and calls all others malformed, against one that calls
them a mismatch. A check with another key is refused in the same way by both. A check with the empty
key is answered by yes, which faults where no item may have a byte. -/
theorem authorize_of_same_acceptance_malformed :
    let scheme : SignatureScheme :=
      ⟨fun key _ _ => if key = [] then .ok () else .error (.malformedKey "no such key")⟩
    let scheme' : SignatureScheme :=
      ⟨fun key _ _ => if key = [] then .ok () else .error .mismatch⟩
    let request := fun body =>
      (⟨.ok [ScriptHash.ofScript [0xAC]], [⟨[0xAC], [1, 5, 1, 7]⟩], body⟩ : Request)
    let narrow : Setting := ⟨⟨3, 2, 0, 1⟩, scheme, []⟩
    let b := ((Machine.new narrow).after [.load [0x00, 0x00] .code]).execute.bench
    (∀ key signature, scheme.verify key (Sha256.digest []) signature = .ok () ↔
      scheme'.verify key (Sha256.digest [1]) signature = .ok ()) ∧
    (machineAuthorizer .standard scheme Ledger.empty).authorize (request [])
      = .error (.rejected 0) ∧
    (machineAuthorizer .standard scheme' Ledger.empty).authorize (request [1])
      = .error (.rejected 0) ∧
    ∃ b', Act.instruction narrow .code 0 0xAC [] b = .error (.itemTooLarge 1 0) b' ∧
      b'.LastAccepted := by
  intro scheme scheme' request narrow b
  have hsame (key signature : Bytes) : scheme.verify key (Sha256.digest []) signature = .ok () ↔
      scheme'.verify key (Sha256.digest [1]) signature = .ok () := by
    by_cases hkey : key = [] <;> simp [scheme, scheme', hkey]
  obtain ⟨hrequests, -, -, -⟩ := authorize_of_same_acceptance .standard Ledger.empty hsame
  obtain ⟨-, -, -, hfaults⟩ := authorize_of_same_acceptance ⟨3, 2, 0, 1⟩ Ledger.empty hsame
  have hdecision : (machineAuthorizer .standard scheme Ledger.empty).authorize (request [])
      = .error (.rejected 0) :=
    (authorizeLone_eq .standard scheme Ledger.empty (w := ⟨[0xAC], [1, 5, 1, 7]⟩)
      (List.cons_ne_nil _ _) []).trans (by decide +kernel)
  have hpoint : b ∈ ((Machine.new narrow).after [.load [0x00, 0x00] .code]).points :=
    List.mem_of_getLast? (Machine.getLast?_points_machine _)
  have hfault : ∃ b', Act.instruction narrow .code 0 0xAC [] b = .error (.itemTooLarge 1 0) b' ∧
      b'.calls.length = b.calls.length + 1 := by
    have hend : (match Act.instruction narrow .code 0 0xAC [] b with
        | .error fault b' => fault == .itemTooLarge 1 0 && b'.calls.length == b.calls.length + 1
        | .ok _ _ => false) = true := by
      decide +kernel
    cases hrun : Act.instruction narrow .code 0 0xAC [] b with
    | ok _ _ =>
        rw [hrun] at hend
        cases hend
    | error fault b' =>
        rw [hrun] at hend
        simp only [Bool.and_eq_true, beq_iff_eq] at hend
        exact ⟨b', by rw [hend.1], hend.2⟩
  obtain ⟨b', hfault, hasked⟩ := hfault
  refine ⟨hsame, hdecision, (hrequests _ _).1.symm.trans hdecision, b', hfault, ?_⟩
  -- Something was asked before the fault, so only the other alternative is left.
  rcases hfaults _ b hpoint _ _ _ _ _ _ hfault with hquiet | ⟨-, -, haccepted⟩
  · have hcalls : b'.calls = b.calls := congrArg Asked.calls hquiet
    rw [hcalls] at hasked
    exact absurd hasked (Nat.ne_of_lt (Nat.lt_succ_self _))
  · exact haccepted

end Countersign
