import Countersign.Authorization.Evaluator
import Countersign.Authorization.Verdict

/-!
# `Countersign.Authorization.Authorizer`: deciding on requests

A request is authorized if each of its witnesses is: the code of the witness has the claimed
hash, and running first the parameter and then the code ends with one item on the stack, which is
true. The witnesses are looked at in order, each with an engine of its own, and the first one that
fails decides.

`Authorizer.inspect` decides and keeps a record of what it asked of the evaluator;
`Authorizer.authorize` is its decision alone. `Authorizer.checkSignature` decides on one signature
without running anything.
-/

set_option autoImplicit false

namespace Countersign

/-- What was found out about witnesses: the decision, what was asked of the evaluator, and the
engines after their runs, all in order. -/
structure Inspection (ε : Type) where
  decision : Decision
  calls : List EvaluatorCall
  engines : List ε

/-- Decides on requests. -/
structure Authorizer (ε : Type) where
  evaluator : Evaluator ε
  scheme : SignatureScheme
  ledger : Ledger := Ledger.empty

namespace Authorizer

variable {ε : Type}

/-- Gets an engine through the run of a witness. The parameter is loaded last, so that it runs
first. -/
def recordRun (a : Authorizer ε) (request : Request) (index : Nat) (w : Witness) :
    Recorded ε := do
  let engine ← a.evaluator.recordCreate index request a.scheme a.ledger
  let engine ← a.evaluator.recordLoad engine w.code .code
  let engine ← a.evaluator.recordLoad engine w.parameter .parameter
  a.evaluator.recordExecute engine

/-- The engine for a witness, after its run. -/
def run (a : Authorizer ε) (request : Request) (index : Nat) (w : Witness) : ε :=
  (a.recordRun request index w).value

/-- Decides on what a run left behind. Each question is asked only if the answer to the one
before it was good. -/
def judge (a : Authorizer ε) (index : Nat) (engine : ε) : Recorded Decision := do
  let phase ← a.evaluator.recordPhase engine
  if phase ≠ .halted then
    return .error (.notHalted index phase)
  let depth ← a.evaluator.recordDepth engine
  if depth ≠ 1 then
    return .error (.stackShape index depth)
  let accepted ← a.evaluator.recordResult engine
  if accepted then
    return .ok true
  else
    return .error (.rejected index)

/-- Decides on one witness. No engine is made for code that is empty or has another hash than
the one claimed. -/
def examine (a : Authorizer ε) (request : Request) (index : Nat) (claim : ScriptHash)
    (w : Witness) : Inspection ε :=
  if w.code = [] then ⟨.error (.emptyCode index), [], []⟩
  else
    let actual := ScriptHash.ofScript w.code
    if actual ≠ claim then ⟨.error (.hashMismatch index claim actual), [], []⟩
    else
      let ran := a.recordRun request index w
      let judged := a.judge index ran.value
      ⟨judged.value, ran.calls ++ judged.calls, [ran.value]⟩

/-- Decides on witnesses in order, beginning with the one at `index`. -/
def examineAll (a : Authorizer ε) (request : Request) :
    (index : Nat) → List (ScriptHash × Witness) → Inspection ε
  | _, [] => ⟨.ok true, [], []⟩
  | index, (claim, w) :: rest =>
    let first := a.examine request index claim w
    match first.decision with
    | .error refusal => ⟨.error refusal, first.calls, first.engines⟩
    | .ok _ =>
      let others := a.examineAll request (index + 1) rest
      ⟨others.decision, first.calls ++ others.calls, first.engines ++ others.engines⟩

/-- Decides on a request, and says what was done for that. No witness is looked at unless there
is exactly one for each claim. -/
def inspect (a : Authorizer ε) (request : Request) : Inspection ε :=
  match request.claims with
  | .error reason => ⟨.error (.claimsUnavailable reason), [], []⟩
  | .ok claims =>
    if claims.length ≠ request.witnesses.length then
      ⟨.error (.countMismatch claims.length request.witnesses.length), [], []⟩
    else a.examineAll request 0 (claims.zip request.witnesses)

/-- Decides on a request. -/
def authorize (a : Authorizer ε) (request : Request) : Decision :=
  (a.inspect request).decision

/-- Decides on a request, as a record. -/
def verdict (a : Authorizer ε) (request : Request) : Verdict :=
  Verdict.ofDecision (a.authorize request)

/-- Decides on one signature over a request. Nothing is run. -/
def checkSignature (a : Authorizer ε) (request : Request) (publicKey signature : Bytes) :
    Decision :=
  match a.scheme.verify publicKey request.digest signature with
  | .ok () => .ok true
  | .error cause => .error (.badSignature cause)

end Authorizer

end Countersign
