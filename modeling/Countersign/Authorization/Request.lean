import Countersign.ScriptHash

/-!
# `Countersign.Authorization.Request`: what is to be authorized

A request consists of a body, the script hashes that its signers claim, and a witness for each
claim. Where the claims come from is not said here, and they may be unavailable. An envelope is
the plain request that holds its claims itself.
-/

set_option autoImplicit false

namespace Countersign

/-- A script that guards an account, and the parameter script that is to satisfy it. -/
structure Witness where
  code : Bytes
  parameter : Bytes
  deriving DecidableEq

/-- What is to be authorized. -/
structure Request where
  /-- The claimed hashes, one for each witness, or why they are not known. -/
  claims : Except String (List ScriptHash)
  witnesses : List Witness
  /-- The bytes that signatures are about. -/
  body : Bytes

/-- The digest that signatures over the request are about. It depends on the body alone, so
witnesses may be attached after signing. -/
def Request.digest (r : Request) : Bytes :=
  Sha256.digest r.body

/-- A request that holds its claims itself. -/
structure Envelope where
  body : Bytes := []
  claims : List ScriptHash := []
  witnesses : List Witness := []
  deriving DecidableEq

namespace Envelope

/-- An envelope whose claims are the hashes of its witnesses' code. -/
def ofWitnesses (body : Bytes) (witnesses : List Witness) : Envelope where
  body
  claims := witnesses.map fun w => ScriptHash.ofScript w.code
  witnesses

/-- The envelope with other witnesses, and the same claims. -/
def withWitnesses (e : Envelope) (witnesses : List Witness) : Envelope :=
  { e with witnesses }

/-- The request that an envelope makes. -/
def toRequest (e : Envelope) : Request where
  claims := .ok e.claims
  witnesses := e.witnesses
  body := e.body

end Envelope

end Countersign
