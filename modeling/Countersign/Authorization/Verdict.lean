import Countersign.Authorization.Refusal

/-!
# `Countersign.Authorization.Verdict`: the record of a decision

A decision is an answer or a refusal; a verdict is the same as a record that can be put into a
report. An answer of `false` becomes a verdict that did not pass and gives no cause.
-/

set_option autoImplicit false

namespace Countersign

/-- What an authorization is answered with. -/
abbrev Decision := Except Refusal Bool

/-- The record of a decision. -/
structure Verdict where
  passed : Bool
  refusal : Option Refusal
  deriving DecidableEq

/-- The record of a decision. Only the answer `true` passes. -/
def Verdict.ofDecision : Decision → Verdict
  | .ok answer => ⟨answer, none⟩
  | .error refusal => ⟨false, some refusal⟩

/-- The verdict as a JSON object, which has a field for the refusal only if there is one. -/
def Verdict.toJson (v : Verdict) : Json.Value :=
  .object (("passed", .bool v.passed) ::
    match v.refusal with
    | some refusal => [("error", refusal.toJson)]
    | none => [])

end Countersign
