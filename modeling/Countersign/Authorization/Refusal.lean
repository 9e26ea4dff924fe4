import Countersign.Json.Value
import Countersign.Machine.Phase
import Countersign.ScriptHash
import Countersign.Signature.Scheme

/-!
# `Countersign.Authorization.Refusal`: why an authorization is refused

Every refusal says what is wrong with the input, and names the witness it is about, if it is
about one. It has a message for people and a JSON object for programs, whose first field `kind`
tells the causes apart.
-/

set_option autoImplicit false

namespace Countersign

/-- Why an authorization is refused. -/
inductive Refusal where
  /-- It is not known which hashes the signers claimed. -/
  | claimsUnavailable (reason : String)
  /-- There are not as many witnesses as claims. -/
  | countMismatch (claims witnesses : Nat)
  /-- The witness has an empty code script. -/
  | emptyCode (index : Nat)
  /-- The code of the witness does not have the hash that was claimed. -/
  | hashMismatch (index : Nat) (claimed actual : ScriptHash)
  /-- The run of the witness did not come to an end. -/
  | notHalted (index : Nat) (phase : Phase)
  /-- The run of the witness left more or less than one item. -/
  | stackShape (index depth : Nat)
  /-- The run of the witness left an item that is false. -/
  | rejected (index : Nat)
  /-- A signature that was checked directly is not accepted. -/
  | badSignature (cause : SignatureError)
  deriving DecidableEq

/-- The witness that a refusal is about. -/
def Refusal.index? : Refusal → Option Nat
  | .emptyCode index | .hashMismatch index _ _ | .notHalted index _ | .stackShape index _
  | .rejected index => some index
  | .claimsUnavailable _ | .countMismatch _ _ | .badSignature _ => none

/-- The refusal of the signature scheme, if that is the cause. -/
def Refusal.cause? : Refusal → Option SignatureError
  | .badSignature cause => some cause
  | _ => none

/-- The refusal as a message. -/
def Refusal.message : Refusal → String
  | .claimsUnavailable reason => "could not obtain program hashes: " ++ reason
  | .countMismatch claims witnesses =>
    Decimal.ofNat claims ++ " program hashes claimed but " ++ Decimal.ofNat witnesses
      ++ " programs attached"
  | .emptyCode index => "program " ++ Decimal.ofNat index ++ " has an empty code script"
  | .hashMismatch index claimed actual =>
    "program " ++ Decimal.ofNat index ++ " hashes to " ++ actual.toHex ++ ", signer claimed "
      ++ claimed.toHex
  | .notHalted index phase =>
    "program " ++ Decimal.ofNat index ++ " did not halt (final state: " ++ phase.name ++ ")"
  | .stackShape index depth =>
    "program " ++ Decimal.ofNat index ++ " left " ++ Decimal.ofNat depth
      ++ " values on the evaluation stack, expected 1"
  | .rejected index => "program " ++ Decimal.ofNat index ++ " evaluated to false"
  | .badSignature cause => "signature verification failed: " ++ cause.message

/-- The cause as a JSON object. -/
def SignatureError.toJson : SignatureError → Json.Value
  | .malformedKey reason =>
    .object [("kind", .string "malformed_public_key"), ("reason", .string reason)]
  | .malformedSignature reason =>
    .object [("kind", .string "malformed_signature"), ("reason", .string reason)]
  | .mismatch => .object [("kind", .string "mismatch")]

/-- The refusal as a JSON object. -/
def Refusal.toJson : Refusal → Json.Value
  | .claimsUnavailable reason =>
    .object [("kind", .string "program_hashes"), ("reason", .string reason)]
  | .countMismatch claims witnesses =>
    .object [("kind", .string "length_mismatch"), ("hashes", .number claims),
      ("programs", .number witnesses)]
  | .emptyCode index => .object [("kind", .string "malformed_program"), ("index", .number index)]
  | .hashMismatch index claimed actual =>
    .object [("kind", .string "hash_mismatch"), ("index", .number index),
      ("expected", .string claimed.toHex), ("actual", .string actual.toHex)]
  | .notHalted index phase =>
    .object [("kind", .string "execution_fault"), ("index", .number index),
      ("state", .string phase.name)]
  | .stackShape index depth =>
    .object [("kind", .string "stack_shape_violation"), ("index", .number index),
      ("depth", .number depth)]
  | .rejected index => .object [("kind", .string "script_rejected"), ("index", .number index)]
  | .badSignature cause =>
    .object [("kind", .string "signature_invalid"), ("source", cause.toJson)]

end Countersign
