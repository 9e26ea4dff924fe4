import Mathlib.Data.List.Forall2
import Countersign.Proofs.Authorization.Protocol

/-!
# `Countersign.Proofs.Authorization.Correspondence`: two authorizers side by side

An authorizer sees of an engine what the engine reports: its phase, the depth of its stack and its
result. So it does not matter what else is in the engines. If two requests make the same claims, and
if each witness of one has a `Counterpart` in the other, then both are decided on in the same way,
and the engines correspond one by one (`inspect_of_counterparts`).

The relation between the engines is a parameter. All that it has to respect is `SameReport`.
-/

set_option autoImplicit false

namespace Countersign.Authorizer

variable {ε ε' : Type} {a : Authorizer ε} {a' : Authorizer ε'}

/-- The two engines answer all that is asked about them in the same way. -/
structure SameReport (a : Authorizer ε) (a' : Authorizer ε') (engine : ε) (engine' : ε') :
    Prop where
  phase : a.evaluator.phase engine = a'.evaluator.phase engine'
  depth : a.evaluator.depth engine = a'.evaluator.depth engine'
  result : a.evaluator.result engine = a'.evaluator.result engine'

/-- An engine answers as it does. -/
theorem SameReport.refl (a : Authorizer ε) (engine : ε) : SameReport a a engine engine :=
  ⟨rfl, rfl, rfl⟩

/-- Two witnesses with the same code, whose runs correspond wherever they stand. -/
structure Counterpart (R : ε → ε' → Prop) (a : Authorizer ε) (a' : Authorizer ε')
    (request request' : Request) (w w' : Witness) : Prop where
  code : w.code = w'.code
  run : ∀ index, R (a.run request index w) (a'.run request' index w')

/-- The decisions are the same, and the engines correspond in order. -/
structure SameFindings (R : ε → ε' → Prop) (found : Inspection ε) (found' : Inspection ε') :
    Prop where
  decision : found.decision = found'.decision
  engines : List.Forall₂ R found.engines found'.engines

/-- Engines that answer in the same way are judged in the same way. -/
theorem judge_of_sameReport {engine : ε} {engine' : ε'} (h : SameReport a a' engine engine')
    (index : Nat) : a.judge index engine = a'.judge index engine' := by
  rw [judge_eq, judge_eq, h.phase, h.depth, h.result]

section
variable {R : ε → ε' → Prop} {request request' : Request}
  (hR : ∀ engine engine', R engine engine' → SameReport a a' engine engine')

include hR

/-- The same is found out about a witness and its counterpart. -/
theorem examine_of_counterpart {w w' : Witness} (h : Counterpart R a a' request request' w w')
    (index : Nat) (claim : ScriptHash) :
    SameFindings R (a.examine request index claim w) (a'.examine request' index claim w') := by
  -- Both objections to the code come before the witness is run, so there is no engine.
  by_cases hcode : w.code = []
  · rw [examine, examine, ← h.code, if_pos hcode, if_pos hcode]
    exact ⟨rfl, .nil⟩
  · by_cases hclaim : ScriptHash.ofScript w.code = claim
    · have hcode' : w'.code ≠ [] := h.code ▸ hcode
      have hclaim' : ScriptHash.ofScript w'.code = claim := h.code ▸ hclaim
      have hjudge := judge_of_sameReport (hR _ _ (h.run index)) index
      rw [examine_of_claim a request index hcode hclaim,
        examine_of_claim a' request' index hcode' hclaim', hjudge]
      exact ⟨rfl, .cons (h.run index) .nil⟩
    · rw [examine, examine, ← h.code]
      simp only [if_neg hcode, if_pos hclaim]
      exact ⟨rfl, .nil⟩

/-- The two rows are walked through in step. They stop at the same place, if they stop at all. -/
theorem examineAll_of_counterparts {witnesses witnesses' : List Witness}
    (h : List.Forall₂ (Counterpart R a a' request request') witnesses witnesses') (index : Nat)
    (claims : List ScriptHash) :
    SameFindings R (a.examineAll request index (claims.zip witnesses))
      (a'.examineAll request' index (claims.zip witnesses')) := by
  induction h generalizing index claims with
  | nil =>
      -- Claims that are left over have no witness to look at.
      rw [List.zip_nil_right]
      exact ⟨rfl, .nil⟩
  | @cons w w' witnesses witnesses' hw _ ih =>
      cases claims with
      | nil => exact ⟨rfl, .nil⟩
      | cons claim claims =>
          obtain ⟨hdecision, hengines⟩ := examine_of_counterpart hR hw index claim
          obtain ⟨hdecisions, hothers⟩ := ih (index + 1) claims
          rw [List.zip_cons_cons, List.zip_cons_cons, examineAll, examineAll, ← hdecision]
          cases (a.examine request index claim w).decision with
          | error refusal =>
              -- The others are not looked at.
              exact ⟨rfl, hengines⟩
          | ok answer => exact ⟨hdecisions, List.rel_append hengines hothers⟩

/-- Requests that correspond are decided on in the same way. -/
theorem inspect_of_counterparts (hclaims : request.claims = request'.claims)
    (h : List.Forall₂ (Counterpart R a a' request request') request.witnesses
      request'.witnesses) :
    SameFindings R (a.inspect request) (a'.inspect request') := by
  rw [inspect, inspect, ← hclaims, h.length_eq]
  cases request.claims with
  | error reason => exact ⟨rfl, .nil⟩
  | ok claims =>
      dsimp only
      split
      · exact ⟨rfl, .nil⟩
      · exact examineAll_of_counterparts hR h 0 claims

end

end Countersign.Authorizer
