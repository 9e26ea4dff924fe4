import Countersign.Authorization.Authorizer
import Countersign.Script.Template
import Countersign.Showcase.Cast

/-!
# `Countersign.Showcase.Scenario`: what the authorizer does, shown on examples

Each scenario has some cases: a request that is made up for the purpose, and whether it should be
authorized. A report puts the verdict beside what was expected. The requests depend on the cast
alone, and the verdicts besides on the authorizer.
-/

set_option autoImplicit false

namespace Countersign.Showcase

/-- A row of cases on one subject. -/
inductive Scenario where
  /-- One signer and an account with one key. -/
  | singleKey
  /-- An account with three keys, of which two have to sign. -/
  | multiKey
  /-- Requests that were altered after they were signed. -/
  | tampered
  /-- Signatures that are checked without running anything. -/
  | direct
  deriving DecidableEq, Repr

namespace Scenario

/-- All scenarios, in the order in which they are shown. -/
def all : List Scenario :=
  [.singleKey, .multiKey, .tampered, .direct]

/-- The name of a scenario. -/
def name : Scenario → String
  | .singleKey => "single-sig"
  | .multiKey => "multi-sig"
  | .tampered => "tampered"
  | .direct => "direct-signature"

/-- The scenario with a name. -/
def ofName? (s : String) : Option Scenario :=
  all.find? fun scenario => scenario.name == s

end Scenario

/-- The verdict on one case, and what was expected. -/
structure Report where
  scenario : Scenario
  case : String
  expectedPass : Bool
  verdict : Verdict

namespace Report

/-- Whether the verdict is the one that was expected. -/
def asExpected (r : Report) : Bool :=
  r.verdict.passed == r.expectedPass

/-- A report as a JSON object. -/
def toJson (r : Report) : Json.Value :=
  .object [("scenario", .string r.scenario.name), ("case", .string r.case),
    ("expected_pass", .bool r.expectedPass), ("outcome", r.verdict.toJson)]

end Report

/-- The body that is signed. -/
def body : Bytes :=
  "transfer 25 units from account A to account B".toUTF8.toList

/-- A body that nobody signed. -/
def alteredBody : Bytes :=
  "transfer 9999 units from account A to account M".toUTF8.toList

/-- The signature of a signer over the body. -/
def Signer.signBody (s : Signer) : Bytes :=
  s.sign (Sha256.digest body)

/-- The witness for an account with the key of a signer, who has signed the body. -/
def Signer.witness (s : Signer) : Except TemplateError Witness := do
  return ⟨← Template.singleKey s.publicKey, ← Template.signatures [s.signBody]⟩

/-- The script of the account with three keys. -/
def Cast.sharedCode (cast : Cast) : Except TemplateError Bytes :=
  Template.multiKey 2 [cast.alice.publicKey, cast.bob.publicKey, cast.carol.publicKey]

/-- A signature with one bit turned over. -/
def flipBit (signature : Bytes) : Bytes :=
  signature.modify 10 (· ^^^ 1)

variable {ε : Type}

/-- The reports on one scenario. -/
def Scenario.reports (a : Authorizer ε) (cast : Cast) (scenario : Scenario) :
    Except TemplateError (List Report) := do
  let ofEnvelope (case : String) (expectedPass : Bool) (e : Envelope) : Report :=
    ⟨scenario, case, expectedPass, a.verdict e.toRequest⟩
  match scenario with
  | .singleKey =>
    let witness ← cast.alice.witness
    return [ofEnvelope "valid signer" true (.ofWitnesses body [witness])]
  | .multiKey =>
    let code ← cast.sharedCode
    let two ← Template.signatures [cast.alice.signBody, cast.carol.signBody]
    let one ← Template.signatures [cast.bob.signBody]
    return [ofEnvelope "2 of 3 signatures" true (.ofWitnesses body [⟨code, two⟩]),
      ofEnvelope "1 of 3 signatures" false (.ofWitnesses body [⟨code, one⟩])]
  | .tampered =>
    let alice ← cast.alice.witness
    let mallory ← cast.mallory.witness
    let padded ← Template.signatures [[1], cast.alice.signBody]
    return [ofEnvelope "altered body" false (.ofWitnesses alteredBody [alice]),
      ofEnvelope "swapped witness" false ⟨body, [ScriptHash.ofScript alice.code], [mallory]⟩,
      ofEnvelope "padded parameter" false (.ofWitnesses body [⟨alice.code, padded⟩]),
      ofEnvelope "missing witness" false
        ((Envelope.ofWitnesses body [alice, mallory]).withWitnesses [alice])]
  | .direct =>
    let request := (Envelope.ofWitnesses body []).toRequest
    let check (signature : Bytes) : Verdict :=
      .ofDecision (a.checkSignature request cast.alice.publicKey signature)
    return [⟨scenario, "valid signature", true, check cast.alice.signBody⟩,
      ⟨scenario, "one bit flipped", false, check (flipBit cast.alice.signBody)⟩]

/-- The reports on several scenarios, one after the other. -/
def reports (a : Authorizer ε) (cast : Cast) :
    List Scenario → Except TemplateError (List Report)
  | [] => .ok []
  | scenario :: scenarios => do
    let first ← scenario.reports a cast
    let others ← reports a cast scenarios
    return first ++ others

/-- The authorizer that the scenarios are shown on. -/
def authorizer (limits : Limits) : Authorizer Machine where
  evaluator := machineEvaluator limits
  scheme := .secp256k1

end Countersign.Showcase
