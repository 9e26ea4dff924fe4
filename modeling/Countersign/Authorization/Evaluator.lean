import Countersign.Authorization.Request
import Countersign.Machine.Run

/-!
# `Countersign.Authorization.Evaluator`: what runs the witnesses

Deciding on a request takes something that runs scripts. An `Evaluator` is any such thing: it
makes a fresh engine for each witness and answers three questions about it once it has run. What
its scripts mean is its own business. `machineEvaluator` is the one whose engines are machines.

What an evaluator is asked is put on record. `Recorded` is a value together with the calls that it
took to get it. Each of the six things that an evaluator can be asked has a recorded form
(`Evaluator.recordCreate` and its siblings), which does the one thing and writes down that it did.
-/

set_option autoImplicit false

namespace Countersign

/-- What a script may ask about the accounts it guards. -/
structure Ledger where
  read : Bytes → Option Bytes

/-- The ledger that knows nothing. -/
def Ledger.empty : Ledger :=
  ⟨fun _ => none⟩

/-- Something that runs scripts. Its engines are values of `ε`. -/
structure Evaluator (ε : Type) where
  /-- The engine for the witness with this index. -/
  create : Nat → Request → SignatureScheme → Ledger → ε
  load : ε → Bytes → Role → ε
  execute : ε → ε
  phase : ε → Phase
  depth : ε → Nat
  result : ε → Bool

/-- One thing that was asked of an evaluator. -/
inductive EvaluatorCall where
  | create
  | load (script : Bytes) (role : Role)
  | execute
  | phase
  | depth
  | result
  deriving DecidableEq

/-- A value, and what was asked of an evaluator to get it, the first call first. -/
structure Recorded (α : Type) where
  value : α
  calls : List EvaluatorCall
  deriving DecidableEq

namespace Recorded

/-- The answer to one call. -/
def answer {α : Type} (call : EvaluatorCall) (value : α) : Recorded α :=
  ⟨value, [call]⟩

/-- Nothing is asked for what is at hand, and what is asked later is written down later. -/
instance : Monad Recorded where
  pure value := ⟨value, []⟩
  bind first next := ⟨(next first.value).value, first.calls ++ (next first.value).calls⟩

end Recorded

namespace Evaluator

variable {ε : Type} (evaluator : Evaluator ε)

/-- Makes an engine, on record. -/
def recordCreate (index : Nat) (request : Request) (scheme : SignatureScheme)
    (ledger : Ledger) : Recorded ε :=
  .answer .create (evaluator.create index request scheme ledger)

/-- Loads a script, on record. -/
def recordLoad (engine : ε) (script : Bytes) (role : Role) : Recorded ε :=
  .answer (.load script role) (evaluator.load engine script role)

/-- Executes what is loaded, on record. -/
def recordExecute (engine : ε) : Recorded ε :=
  .answer .execute (evaluator.execute engine)

/-- Asks how a run has ended, on record. -/
def recordPhase (engine : ε) : Recorded Phase :=
  .answer .phase (evaluator.phase engine)

/-- Asks how many items are on the stack, on record. -/
def recordDepth (engine : ε) : Recorded Nat :=
  .answer .depth (evaluator.depth engine)

/-- Asks whether the top item is true, on record. -/
def recordResult (engine : ε) : Recorded Bool :=
  .answer .result (evaluator.result engine)

end Evaluator

/-- The evaluator that runs each witness on a machine of its own. No instruction of a machine
reads the ledger. -/
def machineEvaluator (limits : Limits) : Evaluator Machine where
  create _ request scheme _ := Machine.new { limits, scheme, body := request.body }
  load := Machine.load
  execute := Machine.execute
  phase := Machine.phase
  depth := Machine.depth
  result := Machine.result

end Countersign
