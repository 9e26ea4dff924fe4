import Countersign.Authorization.Verdict
import Countersign.Proofs.Bytes.Hex
import Countersign.Proofs.Json.Cutting

/-!
# `Countersign.Proofs.Authorization.Reports`: no two causes are reported alike

A refusal is reported as a message for people and as a JSON object for programs. Reasons are put
into messages as they are, so they may hold anything, also what looks like another message. Still
the cause can be told from either report (`reports_tell_apart`).

The messages about a witness begin with a word of their own and then the number of the witness,
which ends at a blank. What is behind it, the `finding`, begins differently for each cause. Numbers
inside a message end at a blank as well, hashes after forty digits, and a reason stands at the end.
Of the JSON objects the first field tells the causes apart, and the text of an object shows what the
object is.
-/

set_option autoImplicit false

namespace Countersign

/-! ### As a message -/

/-- Each phase has a name of its own. -/
theorem Phase.name_inj {p p' : Phase} (h : p.name = p'.name) : p = p' := by
  have hread := congrArg Phase.ofName? h
  revert hread
  cases p <;> cases p' <;> decide

/-- A message about a signature tells all that is wrong with it. -/
theorem SignatureError.message_inj {e e' : SignatureError} (h : e.message = e'.message) :
    e = e' := by
  have hchars := congrArg String.toList h
  -- Messages of different kinds begin with different words.
  cases e with
  | malformedKey reason =>
      cases e' with
      | malformedKey reason' =>
          unfold message at h
          simpa using h
      | malformedSignature _ | mismatch =>
          unfold message at hchars
          simp at hchars
  | malformedSignature reason =>
      cases e' with
      | malformedSignature reason' =>
          unfold message at h
          simpa using h
      | malformedKey _ | mismatch =>
          unfold message at hchars
          simp at hchars
  | mismatch =>
      cases e' with
      | mismatch => rfl
      | malformedKey _ | malformedSignature _ =>
          unfold message at hchars
          simp at hchars

namespace Refusal

/-- What a message about a witness says behind the number of the witness, and any other message says
from the start. -/
def finding : Refusal → String
  | .emptyCode _ => " has an empty code script"
  | .hashMismatch _ claimed actual =>
    " hashes to " ++ actual.toHex ++ ", signer claimed " ++ claimed.toHex
  | .notHalted _ phase => " did not halt (final state: " ++ phase.name ++ ")"
  | .stackShape _ depth =>
    " left " ++ Decimal.ofNat depth ++ " values on the evaluation stack, expected 1"
  | .rejected _ => " evaluated to false"
  | .claimsUnavailable reason => "could not obtain program hashes: " ++ reason
  | .countMismatch claims witnesses =>
    Decimal.ofNat claims ++ " program hashes claimed but " ++ Decimal.ofNat witnesses
      ++ " programs attached"
  | .badSignature cause => "signature verification failed: " ++ cause.message

/-- A message about a witness begins with its number. -/
theorem message_of_index? {r : Refusal} {index : Nat} (h : r.index? = some index) :
    r.message = "program " ++ Decimal.ofNat index ++ r.finding := by
  cases r with
  | claimsUnavailable _ | countMismatch _ _ | badSignature _ => cases h
  | emptyCode _ | hashMismatch _ _ _ | notHalted _ _ | stackShape _ _ | rejected _ =>
      cases h
      unfold message finding
      simp only [String.append_assoc]

/-- A message about no witness is the finding alone. -/
theorem message_of_none {r : Refusal} (h : r.index? = none) : r.message = r.finding := by
  cases r with
  | claimsUnavailable _ | countMismatch _ _ | badSignature _ => rfl
  | emptyCode _ | hashMismatch _ _ _ | notHalted _ _ | stackShape _ _ | rejected _ => cases h

/-- A message that is not about a witness tells everything. Two kinds of them begin with a letter of
their own, and one begins with a digit. -/
theorem finding_inj_of_none {r r' : Refusal} (hr : r.index? = none) (hr' : r'.index? = none)
    (h : r.finding = r'.finding) : r = r' := by
  have hchars := congrArg String.toList h
  cases r with
  | claimsUnavailable reason =>
      cases r' with
      | claimsUnavailable reason' =>
          unfold finding at h
          simpa using h
      | countMismatch claims witnesses =>
          unfold finding at hchars
          simp only [String.toList_append, Decimal.toList_ofNat, List.append_assoc] at hchars
          exact absurd hchars.symm (Decimal.chars_append_ne_cons rfl _ _ _)
      | badSignature cause =>
          unfold finding at hchars
          simp at hchars
      | _ => cases hr'
  | countMismatch claims witnesses =>
      cases r' with
      | countMismatch claims' witnesses' =>
          unfold finding at hchars
          simp only [String.toList_append, Decimal.toList_ofNat, List.append_assoc] at hchars
          -- Behind both numbers stands a blank.
          obtain ⟨rfl, hrest⟩ := Decimal.chars_append_inj (by simp) (by simp) hchars
          obtain ⟨rfl, -⟩ := Decimal.chars_append_inj (by simp) (by simp)
            (List.append_cancel_left hrest)
          rfl
      | claimsUnavailable _ | badSignature _ =>
          unfold finding at hchars
          simp only [String.toList_append, Decimal.toList_ofNat, List.append_assoc] at hchars
          exact absurd hchars (Decimal.chars_append_ne_cons rfl _ _ _)
      | _ => cases hr'
  | badSignature cause =>
      cases r' with
      | badSignature cause' =>
          unfold finding at h
          have hcause : cause.message = cause'.message := by simpa using h
          rw [SignatureError.message_inj hcause]
      | claimsUnavailable _ =>
          unfold finding at hchars
          simp at hchars
      | countMismatch claims witnesses =>
          unfold finding at hchars
          simp only [String.toList_append, Decimal.toList_ofNat, List.append_assoc] at hchars
          exact absurd hchars.symm (Decimal.chars_append_ne_cons rfl _ _ _)
      | _ => cases hr'
  | _ => cases hr

/-- A finding about a witness tells everything but the number of the witness. -/
theorem finding_inj_of_some {r r' : Refusal} {index : Nat} (hr : r.index? = some index)
    (hr' : r'.index? = some index) (h : r.finding = r'.finding) : r = r' := by
  have hchars := congrArg String.toList h
  cases r with
  | emptyCode _ =>
      cases r' with
      | emptyCode _ =>
          cases hr
          cases hr'
          rfl
      | hashMismatch _ _ _ | notHalted _ _ | stackShape _ _ | rejected _ =>
          unfold finding at hchars
          simp at hchars
      | _ => cases hr'
  | hashMismatch _ claimed actual =>
      cases r' with
      | hashMismatch _ claimed' actual' =>
          cases hr
          cases hr'
          unfold finding at hchars
          simp only [String.toList_append, List.append_assoc] at hchars
          -- The first hash ends after forty digits.
          obtain ⟨hactual, hrest⟩ := List.append_inj (List.append_cancel_left hchars)
            (actual.length_toHex.trans actual'.length_toHex.symm)
          have hclaimed := List.append_cancel_left hrest
          rw [ScriptHash.toHex_inj (String.toList_inj.mp hactual),
            ScriptHash.toHex_inj (String.toList_inj.mp hclaimed)]
      | emptyCode _ | notHalted _ _ | stackShape _ _ | rejected _ =>
          unfold finding at hchars
          simp at hchars
      | _ => cases hr'
  | notHalted _ phase =>
      cases r' with
      | notHalted _ phase' =>
          cases hr
          cases hr'
          unfold finding at h
          have hname : phase.name = phase'.name := by simpa using h
          rw [Phase.name_inj hname]
      | emptyCode _ | hashMismatch _ _ _ | stackShape _ _ | rejected _ =>
          unfold finding at hchars
          simp at hchars
      | _ => cases hr'
  | stackShape _ depth =>
      cases r' with
      | stackShape _ depth' =>
          cases hr
          cases hr'
          unfold finding at hchars
          have hdigits : Decimal.chars depth = Decimal.chars depth' := by
            simpa [Decimal.toList_ofNat] using hchars
          rw [Decimal.chars_inj hdigits]
      | emptyCode _ | hashMismatch _ _ _ | notHalted _ _ | rejected _ =>
          unfold finding at hchars
          simp at hchars
      | _ => cases hr'
  | rejected _ =>
      cases r' with
      | rejected _ =>
          cases hr
          cases hr'
          rfl
      | emptyCode _ | hashMismatch _ _ _ | notHalted _ _ | stackShape _ _ =>
          unfold finding at hchars
          simp at hchars
      | _ => cases hr'
  | _ => cases hr

/-- Behind the number of the witness stands a blank, so the number ends there. -/
theorem finding_of_some {r : Refusal} {index : Nat} (hr : r.index? = some index) :
    ∀ c ∈ r.finding.toList.head?, c.isDigit = false := by
  cases r with
  | emptyCode _ | hashMismatch _ _ _ | notHalted _ _ | stackShape _ _ | rejected _ =>
      unfold finding
      simp
  | _ => cases hr

/-- A message about a witness begins like no other. -/
theorem message_ne_of_index? {r r' : Refusal} {index : Nat} (hr : r.index? = some index)
    (hr' : r'.index? = none) : r.message ≠ r'.message := by
  intro h
  rw [message_of_index? hr, message_of_none hr'] at h
  have hchars := congrArg String.toList h
  cases r' with
  | claimsUnavailable _ | badSignature _ =>
      unfold finding at hchars
      simp at hchars
  | countMismatch claims witnesses =>
      unfold finding at hchars
      simp only [String.toList_append, Decimal.toList_ofNat, List.append_assoc] at hchars
      exact absurd hchars.symm (Decimal.chars_append_ne_cons rfl _ _ _)
  | _ => cases hr'

/-- A message tells everything about a refusal. -/
theorem message_inj {r r' : Refusal} (h : r.message = r'.message) : r = r' := by
  cases hr : r.index? with
  | none =>
      cases hr' : r'.index? with
      | none =>
          rw [message_of_none hr, message_of_none hr'] at h
          exact finding_inj_of_none hr hr' h
      | some index' => exact absurd h.symm (message_ne_of_index? hr' hr)
  | some index =>
      cases hr' : r'.index? with
      | none => exact absurd h (message_ne_of_index? hr hr')
      | some index' =>
          rw [message_of_index? hr, message_of_index? hr'] at h
          have hchars := congrArg String.toList h
          simp only [String.toList_append, Decimal.toList_ofNat, List.append_assoc] at hchars
          obtain ⟨rfl, hfinding⟩ := Decimal.chars_append_inj (finding_of_some hr)
            (finding_of_some hr') (List.append_cancel_left hchars)
          exact finding_inj_of_some hr hr' (String.toList_inj.mp hfinding)

end Refusal

/-! ### As JSON -/

/-- What is wrong with a signature can be read back from JSON. -/
theorem SignatureError.toJson_inj {e e' : SignatureError} (h : e.toJson = e'.toJson) : e = e' := by
  cases e <;> cases e' <;> simp_all [toJson]

/-- A refusal can be read back from JSON. -/
theorem Refusal.toJson_inj {r r' : Refusal} (h : r.toJson = r'.toJson) : r = r' := by
  -- The first field is another one for another cause, and the others are what the refusal holds.
  cases r <;> cases r' <;> simp_all [toJson]
  case hashMismatch.hashMismatch =>
      exact ⟨ScriptHash.toHex_inj h.2.1, ScriptHash.toHex_inj h.2.2⟩
  case notHalted.notHalted => exact Phase.name_inj h.2
  case badSignature.badSignature => exact SignatureError.toJson_inj h

/-- A verdict can be read back from JSON. -/
theorem Verdict.toJson_inj {v v' : Verdict} (h : v.toJson = v'.toJson) : v = v' := by
  obtain ⟨passed, refusal⟩ := v
  obtain ⟨passed', refusal'⟩ := v'
  cases refusal with
  | none =>
      cases refusal' with
      | none =>
          have hpassed : passed = passed' := by simpa [toJson] using h
          rw [hpassed]
      | some _ => simp [toJson] at h
  | some refusal =>
      cases refusal' with
      | none => simp [toJson] at h
      | some refusal' =>
          have hfields : passed = passed' ∧ refusal.toJson = refusal'.toJson := by
            simpa [toJson] using h
          rw [hfields.1, Refusal.toJson_inj hfields.2]

/-- Decisions that differ make verdicts that differ. -/
theorem Verdict.ofDecision_inj {d d' : Decision} (h : ofDecision d = ofDecision d') : d = d' := by
  cases d <;> cases d' <;> simp_all [ofDecision]

/-- The report of a refusal, a verdict or a decision tells what it is about.

* Two refusals have the same message only if they are the same, whatever their reasons are.
* They have the same JSON text only then, too.
* Two verdicts have the same JSON text only if they are the same.
* So it can be told from the verdict on a decision what was decided: yes, no, or refused and why. -/
theorem reports_tell_apart (r r' : Refusal) (v v' : Verdict) (d d' : Decision) :
    (r.message = r'.message ↔ r = r') ∧
    (r.toJson.render = r'.toJson.render ↔ r = r') ∧
    (v.toJson.render = v'.toJson.render ↔ v = v') ∧
    ((Verdict.ofDecision d).toJson.render = (Verdict.ofDecision d').toJson.render ↔ d = d') := by
  have hverdict : ∀ {v v' : Verdict}, v.toJson.render = v'.toJson.render → v = v' :=
    fun h => Verdict.toJson_inj (Json.Value.render_inj h)
  refine ⟨⟨Refusal.message_inj, ?_⟩, ⟨fun h => Refusal.toJson_inj (Json.Value.render_inj h), ?_⟩,
    ⟨hverdict, ?_⟩, ⟨fun h => Verdict.ofDecision_inj (hverdict h), ?_⟩⟩
  all_goals
    rintro rfl
    rfl

end Countersign
