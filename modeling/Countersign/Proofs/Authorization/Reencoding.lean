import Countersign.Proofs.Authorization.Correspondence
import Countersign.Proofs.Authorization.Witness

/-!
# `Countersign.Proofs.Authorization.Reencoding`: witnesses that push the same

There are several instructions for one item, so there are several parameters for one list of items.
Nobody needs a key to turn one of them into another, and no script hash covers the parameter.

It makes no difference. A row of push instructions is run as its items are pushed
(`Act.runSegment_pushes`), each at the cost of one step whichever instruction it is, so the bench
that the code finds is the same in all respects. `execute_and_authorize_of_samePushes` carries this
over to machines and to decisions, for any code.
-/

set_option autoImplicit false

namespace Countersign

open Act

/-- Two witnesses that are the same but for how the parameter pushes its items. -/
inductive Witness.SamePushes : Witness → Witness → Prop
  | refl (w : Witness) : SamePushes w w
  | reencoded {code parameter parameter' : Bytes} {items : List Bytes} :
      Pushes parameter items → Pushes parameter' items →
      SamePushes ⟨code, parameter⟩ ⟨code, parameter'⟩

/-- What a witness has to run, in the order in which it runs. -/
def Witness.segments (w : Witness) : List Segment :=
  [⟨w.parameter, .parameter⟩, ⟨w.code, .code⟩]

/-- All that a run sees of a row of push instructions is the items. -/
theorem runWitness_of_pushes {code parameter : Bytes} {items : List Bytes}
    (h : Pushes parameter items) (setting : Setting) :
    runWitness setting ⟨code, parameter⟩
      = (do pushAll setting.limits items; runSegments setting [⟨code, .code⟩]) Bench.fresh := by
  rw [runWitness, runSegments, runSegment_pushes h]

/-- The bench starts out the same for both, and the code is the same. -/
theorem runWitness_of_samePushes {w w' : Witness} (h : w.SamePushes w') (setting : Setting) :
    runWitness setting w = runWitness setting w' := by
  cases h with
  | refl => rfl
  | reencoded hpushes hpushes' =>
      rw [runWitness_of_pushes hpushes, runWitness_of_pushes hpushes']

/-- They also leave the same segments unbegun: both parameters fault, or neither. -/
theorem unbegun_of_samePushes {w w' : Witness} (h : w.SamePushes w') (setting : Setting) :
    unbegun setting w.segments Bench.fresh = unbegun setting w'.segments Bench.fresh := by
  cases h with
  | refl => rfl
  | reencoded hpushes hpushes' =>
      rw [Witness.segments, Witness.segments, unbegun, unbegun, runSegment_pushes hpushes,
        runSegment_pushes hpushes']

/-- The machine of a witness keeps nothing but the end of the run, and after a fault what was not
begun. -/
theorem execute_loaded (setting : Setting) (w : Witness) :
    (loaded setting w).execute
      = match runWitness setting w with
        | .ok _ b => { setting, bench := b, phase := .halted }
        | .error fault b =>
          { setting
            segments := unbegun setting w.segments Bench.fresh
            bench := b
            phase := .faulted
            fault := some fault } :=
  Machine.execute_loadAll setting [⟨w.code, .code⟩, ⟨w.parameter, .parameter⟩]

/-- Two parameters that push the same items leave the same machine. -/
theorem execute_loaded_of_samePushes {w w' : Witness} (h : w.SamePushes w') (setting : Setting) :
    (loaded setting w).execute = (loaded setting w').execute := by
  rw [execute_loaded, execute_loaded, runWitness_of_samePushes h, unbegun_of_samePushes h]

/-- Such witnesses are counterparts, wherever each of them stands in requests over the same body. -/
theorem counterpart_of_samePushes (limits : Limits) (scheme : SignatureScheme) (ledger : Ledger)
    (request request' : Request) (hbody : request.body = request'.body) {w w' : Witness}
    (h : w.SamePushes w') :
    Authorizer.Counterpart Eq (machineAuthorizer limits scheme ledger)
      (machineAuthorizer limits scheme ledger) request request' w w' := by
  constructor
  case code => cases h <;> rfl
  case run =>
    intro index
    show (loaded ⟨limits, scheme, request.body⟩ w).execute
      = (loaded ⟨limits, scheme, request'.body⟩ w').execute
    rw [hbody, execute_loaded_of_samePushes h]

/-- A run depends on the parameter only through the items that it pushes.

* Whatever the code is, two parameters that push the same items leave the same machine: the same
  phase and fault, the same stack, as many steps, the same questions to the scheme.
* A request in which parameters are replaced by others that push the same items, in as many
  witnesses as one likes, is decided on in the same way, by engines that are left in the same
  state. -/
theorem execute_and_authorize_of_samePushes (limits : Limits) (scheme : SignatureScheme)
    (ledger : Ledger) (body : Bytes) :
    (∀ code parameter parameter' items, Pushes parameter items → Pushes parameter' items →
      (loaded ⟨limits, scheme, body⟩ ⟨code, parameter⟩).execute
        = (loaded ⟨limits, scheme, body⟩ ⟨code, parameter'⟩).execute) ∧
    (∀ claims witnesses witnesses', List.Forall₂ Witness.SamePushes witnesses witnesses' →
      let a := machineAuthorizer limits scheme ledger
      let request : Request := ⟨claims, witnesses, body⟩
      let request' : Request := ⟨claims, witnesses', body⟩
      a.authorize request = a.authorize request' ∧
        (a.inspect request).engines = (a.inspect request').engines) := by
  constructor
  · intro code parameter parameter' items hpushes hpushes'
    exact execute_loaded_of_samePushes (.reencoded hpushes hpushes') _
  · intro claims witnesses witnesses' hwitnesses a request request'
    have hcounterparts : List.Forall₂ (Authorizer.Counterpart Eq a a request request') witnesses
        witnesses' :=
      hwitnesses.imp fun w w' => counterpart_of_samePushes limits scheme ledger request request' rfl
    -- The engines are not only alike, they are equal.
    have hreport (engine engine' : Machine) (h : engine = engine') :
        Authorizer.SameReport a a engine engine' := by
      subst h
      exact .refl a engine
    have hfound : Authorizer.SameFindings Eq (a.inspect request) (a.inspect request') :=
      Authorizer.inspect_of_counterparts hreport rfl hcounterparts
    have hengines := hfound.engines
    rw [List.forall₂_eq_eq_eq] at hengines
    exact ⟨hfound.decision, hengines⟩

/-- A signature and a key of one byte each. Either they are pushed by their length, or the one is
pushed as a small number and the other with a length of two bytes. Both parameters lead to the same
question and to the answer yes. -/
theorem execute_and_authorize_of_samePushes_two_encodings :
    let scheme : SignatureScheme :=
      ⟨fun key _ signature => if key = signature then .ok () else .error .mismatch⟩
    let code : Bytes := [0xAC]
    let parameter : Bytes := [1, 5, 1, 5]
    let parameter' : Bytes := [0x55, 0x4D, 1, 0, 5]
    let run := fun parameter => (loaded ⟨.standard, scheme, []⟩ ⟨code, parameter⟩).execute
    let request := fun parameter =>
      (⟨.ok [ScriptHash.ofScript code], [⟨code, parameter⟩], []⟩ : Request)
    let a := machineAuthorizer .standard scheme Ledger.empty
    Pushes parameter [[5], [5]] ∧ Pushes parameter' [[5], [5]] ∧
      run parameter = run parameter' ∧ (run parameter).bench.steps = 3 ∧
      (run parameter).signatureCalls.length = 1 ∧
      a.authorize (request parameter) = a.authorize (request parameter') ∧
      a.authorize (request parameter) = .ok true := by
  intro scheme code parameter parameter' run request a
  have hitem : PushInstruction [1, 5] [5] :=
    @PushInstruction.bytes [5] Nat.zero_lt_one (by rw [List.length_singleton]; decide)
  have hnumber : PushInstruction [0x55] [5] := @PushInstruction.number 5 (by decide) (by decide)
  have hwide : PushInstruction [0x4D, 1, 0, 5] [5] :=
    @PushInstruction.countedWide [5] (by rw [List.length_singleton]; decide)
  have hpushes : Pushes parameter [[5], [5]] := .cons hitem hitem.pushes
  have hpushes' : Pushes parameter' [[5], [5]] := .cons hnumber hwide.pushes
  obtain ⟨hmachines, hrequests⟩ :=
    execute_and_authorize_of_samePushes .standard scheme Ledger.empty []
  have hrun := hmachines code parameter parameter' _ hpushes hpushes'
  have hdecisions := (hrequests (.ok [ScriptHash.ofScript code]) [⟨code, parameter⟩]
    [⟨code, parameter'⟩] (.cons (.reencoded hpushes hpushes') .nil)).1
  have hdecision : a.authorize (request parameter) = .ok true :=
    (authorizeLone_eq .standard scheme Ledger.empty (w := ⟨code, parameter⟩)
      (List.cons_ne_nil _ _) []).trans (by decide +kernel)
  exact ⟨hpushes, hpushes', hrun, by decide +kernel, by decide +kernel, hdecisions, hdecision⟩

end Countersign
