import Countersign.Proofs.Authorization.Protocol
import Countersign.Proofs.Machine.Life
import Countersign.Proofs.Machine.Pushing

/-!
# `Countersign.Proofs.Authorization.Witness`: one witness on a machine

`machineAuthorizer` is the authorizer whose engines are machines. On a request with a single
witness that claims its own hash it decides by one run (`authorizeLone_eq`): the parameter,
then the code, from an empty bench. `decisionOfRun` reads the decision off the end of that run.

`authorize_of_not_pushes` settles all parameters that are not a row of push instructions, for
whatever code they are handed to.
-/

set_option autoImplicit false

namespace Countersign

open Act

/-- The authorizer that runs each witness on a machine of its own. -/
def machineAuthorizer (limits : Limits) (scheme : SignatureScheme) (ledger : Ledger) :
    Authorizer Machine where
  evaluator := machineEvaluator limits
  scheme
  ledger

/-- The machine that has loaded a witness. -/
def loaded (setting : Setting) (w : Witness) : Machine :=
  ((Machine.new setting).load w.code .code).load w.parameter .parameter

/-- What the machine of a witness is told. -/
def Witness.commands (w : Witness) : List Command :=
  [.load w.code .code, .load w.parameter .parameter, .execute]

/-- An engine is a machine that has obeyed the commands of its witness, so what holds of a machine
whatever it is told holds of every engine. -/
theorem run_eq_after (limits : Limits) (scheme : SignatureScheme) (ledger : Ledger)
    (request : Request) (index : Nat) (w : Witness) :
    (machineAuthorizer limits scheme ledger).run request index w
      = (Machine.new ⟨limits, scheme, request.body⟩).after w.commands :=
  rfl

/-- The run of a witness from an empty bench: the parameter first, the code after it. -/
def runWitness (setting : Setting) (w : Witness) : EStateM.Result Fault Bench Unit :=
  runSegments setting [⟨w.parameter, .parameter⟩, ⟨w.code, .code⟩] Bench.fresh

/-- The result of a machine is whether the top of its stack is true. -/
theorem Machine.result_eq (m : Machine) : m.result = m.bench.stack.top?.any isTrue := by
  rw [result]
  cases m.bench.stack.top? <;> rfl

/-- What the end of a run means for the witness with this index. -/
def decisionOfRun (index : Nat) : EStateM.Result Fault Bench Unit → Decision
  | .error _ _ => .error (.notHalted index .faulted)
  | .ok _ b =>
    if b.stack.depth ≠ 1 then .error (.stackShape index b.stack.depth)
    else if b.stack.top?.any isTrue then .ok true
    else .error (.rejected index)

/-- A run that faults did not halt. -/
theorem decisionOfRun_of_faults {x : Act Unit} {b : Bench} (h : Faults x b) (index : Nat) :
    decisionOfRun index (x b) = .error (.notHalted index .faulted) := by
  obtain ⟨fault, b', h⟩ := h
  rw [h, decisionOfRun]

/-- An answer that is put on the stack is read as it was given. -/
theorem isTrue_boolItem (accepted : Bool) : isTrue (boolItem accepted) = accepted := by
  cases accepted <;> rfl

/-- An answer is an item of one byte at most. -/
theorem length_boolItem_le (accepted : Bool) : (boolItem accepted).length ≤ 1 := by
  cases accepted <;> decide

/-- A run that ends with an answer on top passes if the answer is all there is, and it is yes. -/
theorem decisionOfRun_of_answer {b : Bench} {accepted : Bool} {rest : List Bytes}
    (h : b.stack.items = boolItem accepted :: rest) (index : Nat) :
    decisionOfRun index (.ok () b)
      = if rest ≠ [] then .error (.stackShape index (rest.length + 1))
        else if accepted then .ok true else .error (.rejected index) := by
  have hdepth : b.stack.depth = rest.length + 1 := by
    rw [b.stack.depth_eq, h, List.length_cons]
  have htop : b.stack.top?.any isTrue = accepted := by
    rw [Stack.top?, h, List.head?_cons, Option.any_some, isTrue_boolItem]
  rw [decisionOfRun, hdepth, htop]
  cases rest with
  | nil => simp
  | cons item rest => simp

/-- The decision on a request over `body` with a single witness, which claims the hash of its own
code. -/
def Authorizer.authorizeLone {ε : Type} (a : Authorizer ε) (body : Bytes) (w : Witness) :
    Decision :=
  a.authorize (Envelope.ofWitnesses body [w]).toRequest

/-! ### From the authorizer to the run -/

variable (limits : Limits) (scheme : SignatureScheme) (ledger : Ledger)

/-- The machine of a witness is judged by how its run ended. -/
theorem judge_run (request : Request) (index : Nat) (w : Witness) :
    ((machineAuthorizer limits scheme ledger).judge index
        ((machineAuthorizer limits scheme ledger).run request index w)).value
      = decisionOfRun index (runWitness ⟨limits, scheme, request.body⟩ w) := by
  have hrun : (machineAuthorizer limits scheme ledger).run request index w
      = (loaded ⟨limits, scheme, request.body⟩ w).execute := rfl
  rw [hrun]
  cases hend : runWitness ⟨limits, scheme, request.body⟩ w with
  | error fault b =>
      rw [Machine.execute_of_error (m := loaded ⟨limits, scheme, request.body⟩ w) rfl hend]
      rfl
  | ok _ b =>
      -- A run that halts is judged by what it has left on the stack.
      rw [Machine.execute_of_ok (m := loaded ⟨limits, scheme, request.body⟩ w) rfl hend]
      simp only [Authorizer.judge_eq, machineAuthorizer, machineEvaluator, Machine.depth,
        Machine.result_eq, decisionOfRun]
      split
      · rename_i h
        exact absurd rfl h
      · split
        · rfl
        · split <;> rfl

/-- A witness is refused for its code, or decided on by its run. -/
theorem decision_examine (request : Request) (index : Nat) (claim : ScriptHash) (w : Witness) :
    ((machineAuthorizer limits scheme ledger).examine request index claim w).decision
      = if w.code = [] then .error (.emptyCode index)
        else if ScriptHash.ofScript w.code ≠ claim then
          .error (.hashMismatch index claim (ScriptHash.ofScript w.code))
        else decisionOfRun index (runWitness ⟨limits, scheme, request.body⟩ w) := by
  rw [Authorizer.examine]
  split
  · rfl
  · dsimp only
    split
    · rfl
    · exact judge_run limits scheme ledger request index w

/-- A run is never judged by the answer no: it passes or is refused. -/
theorem decisionOfRun_ne_false (index : Nat) (r : EStateM.Result Fault Bench Unit) :
    decisionOfRun index r ≠ .ok false := by
  intro h
  cases r with
  | error fault b => cases h
  | ok _ b =>
      rw [decisionOfRun] at h
      split at h
      · cases h
      · split at h <;> cases h

/-- A request with a single witness that claims its own hash is decided on by one run. -/
theorem authorizeLone_eq {w : Witness} (hcode : w.code ≠ []) (body : Bytes) :
    (machineAuthorizer limits scheme ledger).authorizeLone body w
      = decisionOfRun 0 (runWitness ⟨limits, scheme, body⟩ w) := by
  have hexamine : ((machineAuthorizer limits scheme ledger).examine
        (Envelope.ofWitnesses body [w]).toRequest 0 (ScriptHash.ofScript w.code) w).decision
      = decisionOfRun 0 (runWitness ⟨limits, scheme, body⟩ w) := by
    rw [Authorizer.decision_examine_of_claim _ _ _ hcode rfl, judge_run]
    rfl
  have hfalse := decisionOfRun_ne_false 0 (runWitness ⟨limits, scheme, body⟩ w)
  have hclaims : (Envelope.ofWitnesses body [w]).toRequest.claims
      = .ok [ScriptHash.ofScript w.code] := rfl
  rw [Authorizer.authorizeLone, Authorizer.authorize, Authorizer.inspect_of_length_eq hclaims rfl]
  show ((machineAuthorizer limits scheme ledger).examineAll _ 0
    [(ScriptHash.ofScript w.code, w)]).decision = _
  rw [Authorizer.examineAll]
  dsimp only
  rw [hexamine]
  -- What comes after the only witness is the empty list, which is decided by yes.
  cases hdecision : decisionOfRun 0 (runWitness ⟨limits, scheme, body⟩ w) with
  | error refusal => rfl
  | ok answer =>
      cases answer with
      | true => rfl
      | false => exact absurd hdecision hfalse

/-- No account is satisfied by a parameter that is not a row of push instructions. -/
theorem authorize_of_not_pushes {w : Witness} (hcode : w.code ≠ [])
    (h : ¬ ∃ items, Pushes w.parameter items) (body : Bytes) :
    (machineAuthorizer limits scheme ledger).authorizeLone body w
      = .error (.notHalted 0 .faulted) := by
  have hparameter := runFrom_parameter_faults h ⟨limits, scheme, body⟩ 0 Bench.fresh
  rw [authorizeLone_eq limits scheme ledger hcode, runWitness, runSegments]
  exact decisionOfRun_of_faults (Faults.bind hparameter _) 0

/-- Only a row of push instructions satisfies an account. -/
theorem exists_pushes_of_authorize {w : Witness} (hcode : w.code ≠ []) {body : Bytes}
    (hok : (machineAuthorizer limits scheme ledger).authorizeLone body w = .ok true) :
    ∃ items, Pushes w.parameter items := by
  by_contra hparses
  rw [authorize_of_not_pushes limits scheme ledger hcode hparses body] at hok
  cases hok

end Countersign
