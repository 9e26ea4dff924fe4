import Countersign.Digest.Sha256
import Countersign.Machine.Fault
import Countersign.Machine.Limits
import Countersign.Machine.Stack
import Countersign.Signature.Scheme

/-!
# `Countersign.Machine.Bench`: what a run changes, and the elementary acts on it

A run happens in a `Setting` that stays the same (the limits, the signature scheme, the signed
body) and changes a `Bench`: the stack, the number of steps, and what it has asked of the body and
of the scheme. An act either answers or faults; either way it leaves a bench behind, so a fault
keeps what was done before it.

The body is digested when a signature is checked for the first time, and never again.
-/

set_option autoImplicit false

namespace Countersign

/-- One question to the signature scheme, and whether it accepted. -/
structure SignatureCall where
  publicKey : Bytes
  digest : Bytes
  signature : Bytes
  accepted : Bool
  deriving DecidableEq, Repr

/-- What stays the same during a run. -/
structure Setting where
  limits : Limits
  scheme : SignatureScheme
  /-- The bytes that signatures are about. -/
  body : Bytes

/-- What a run changes. -/
structure Bench where
  stack : Stack := {}
  /-- How many instructions were begun. -/
  steps : Nat := 0
  /-- The digest of the body, once it was needed. -/
  digest : Option Bytes := none
  /-- How often the body was asked for. -/
  bodyReads : Nat := 0
  /-- The questions to the scheme, the latest first. -/
  calls : List SignatureCall := []

/-- Something done on a bench. It answers or faults, and leaves a bench either way. -/
abbrev Act := EStateM Fault Bench

namespace Act

/-- Begins an instruction. The step that exceeds the limit is counted. -/
def tick (limits : Limits) : Act Unit := do
  let b ← get
  set { b with steps := b.steps + 1 }
  if limits.maxSteps.toNat < b.steps + 1 then
    throw (.stepLimit limits.maxSteps.toNat)

/-- Puts an item on the stack. Its size is looked at before the room for it is. -/
def push (limits : Limits) (item : Bytes) : Act Unit := do
  if limits.maxItemSize.toNat < item.length then
    throw (.itemTooLarge item.length limits.maxItemSize.toNat)
  let b ← get
  if limits.maxStackSize.toNat ≤ b.stack.depth then
    throw (.stackOverflow limits.maxStackSize.toNat)
  set { b with stack := b.stack.push item }

/-- Takes the top item off the stack, for the instruction `op`. -/
def pop (op : UInt8) : Act Bytes := do
  let b ← get
  match b.stack.pop? with
  | none => throw (.stackUnderflow op)
  | some (item, stack) =>
    set { b with stack := stack }
    return item

/-- Takes `n` items off the stack and puts them in front of `taken`, in the order in which they
were pushed. -/
def popMany (op : UInt8) : (n : Nat) → (taken : List Bytes) → Act (List Bytes)
  | 0, taken => pure taken
  | n + 1, taken => do
    let item ← pop op
    popMany op n (item :: taken)

/-- The digest that signatures are checked against. -/
def messageDigest (body : Bytes) : Act Bytes := do
  let b ← get
  match b.digest with
  | some digest => return digest
  | none =>
    let digest := Sha256.digest body
    set { b with digest := some digest, bodyReads := b.bodyReads + 1 }
    return digest

/-- Asks the scheme about a signature, and keeps a record of the answer. -/
def ask (scheme : SignatureScheme) (publicKey digest signature : Bytes) : Act Bool := do
  let accepted := scheme.accepts publicKey digest signature
  modify fun b => { b with calls := ⟨publicKey, digest, signature, accepted⟩ :: b.calls }
  return accepted

/-- The operand of `n` bytes at the front of what follows, which starts at `offset`. -/
def operand (offset n : Nat) (following : Bytes) : Act Bytes :=
  match Bytes.splitAt? n following with
  | some (operand, _) => pure operand
  | none => throw (.truncatedPush offset)

end Act

end Countersign
