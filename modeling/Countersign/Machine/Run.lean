import Countersign.Machine.Multisig
import Countersign.Machine.Phase

/-!
# `Countersign.Machine.Run`: running scripts

A segment is a script in one of two roles. A parameter segment may only push; a code segment may
hold any instruction. `runSegment` reads a script once, instruction by instruction; each costs one
step, which is counted before its opcode is looked at.

A machine runs the segments that were loaded last first, on one stack and one count of steps, and
it runs only once: after that nothing that can be seen of it changes any more. Each segment is taken
off before it is run, so after a fault those behind it are still loaded.
-/

set_option autoImplicit false

namespace Countersign

/-- What a segment may hold. -/
inductive Role where
  /-- Any instruction. -/
  | code
  /-- Only pushes. -/
  | parameter
  deriving DecidableEq, Repr

/-- A script that is loaded. -/
structure Segment where
  script : Bytes
  role : Role
  deriving DecidableEq, Repr

namespace Act

/-- Executes what `op`, which stands at `offset`, asks for, and says how many bytes of what
follows it were its operand. -/
def perform (setting : Setting) (offset : Nat) (op : UInt8) (following : Bytes) : Act Nat :=
  match Operation.ofByte op with
  | .pushEmpty => do
    push setting.limits []
    return 0
  | .pushBytes count => do
    let item ← operand (offset + 1) count following
    push setting.limits item
    return count
  | .pushCounted => do
    -- The script may end in the length or in the item. The fault names the place where the part
    -- begins that is cut off.
    let length ← operand (offset + 1) 1 following
    let item ← operand (offset + 2) (Bytes.toNatLE length) (following.drop 1)
    push setting.limits item
    return 1 + Bytes.toNatLE length
  | .pushCountedWide => do
    let length ← operand (offset + 1) 2 following
    let item ← operand (offset + 3) (Bytes.toNatLE length) (following.drop 2)
    push setting.limits item
    return 2 + Bytes.toNatLE length
  | .pushNumber n => do
    push setting.limits (Number.encode n)
    return 0
  | .nop => return 0
  | .drop => do
    let _ ← pop op
    return 0
  | .dup => do
    -- The item stays where it is, so nothing is lost if there is no room for the copy.
    match (← get).stack.top? with
    | none => throw (.stackUnderflow op)
    | some item =>
      push setting.limits item
      return 0
  | .checkSignature => do
    let publicKey ← pop op
    let signature ← pop op
    let digest ← messageDigest setting.body
    let accepted ← ask setting.scheme publicKey digest signature
    push setting.limits (boolItem accepted)
    return 0
  | .checkMultisig => do
    let accepted ← checkMultisig setting
    push setting.limits (boolItem accepted)
    return 0
  | .unknown => throw (.unknownOpcode op)

/-- Counts a step and executes one instruction. -/
def instruction (setting : Setting) (role : Role) (offset : Nat) (op : UInt8)
    (following : Bytes) : Act Nat := do
  tick setting.limits
  -- An opcode that a parameter may not hold has been counted as a step all the same.
  if role = .parameter ∧ isPush op = false then
    throw (.nonPushParameter op)
  perform setting offset op following

/-- Runs what is left of a segment, which starts at `offset`. -/
def runFrom (setting : Setting) (role : Role) (offset : Nat) (script : Bytes) : Act Unit :=
  match script with
  | [] => pure ()
  | op :: following => do
    let width ← instruction setting role offset op following
    runFrom setting role (offset + 1 + width) (following.drop width)
termination_by script.length
decreasing_by simp only [List.length_cons, List.length_drop]; omega

/-- Runs a segment. -/
def runSegment (setting : Setting) (segment : Segment) : Act Unit :=
  runFrom setting segment.role 0 segment.script

end Act

/-- A machine with what it has loaded and how far it has come. -/
structure Machine where
  setting : Setting
  /-- The segments that are still to run, the one loaded last first. -/
  segments : List Segment := []
  bench : Bench := {}
  phase : Phase := .running
  fault : Option Fault := none

namespace Machine

/-- A machine that has loaded nothing. -/
def new (setting : Setting) : Machine :=
  { setting }

/-- Loads a script; it will run before those loaded earlier. -/
def load (m : Machine) (script : Bytes) (role : Role) : Machine :=
  { m with segments := ⟨script, role⟩ :: m.segments }

/-- Runs these segments one after the other, and stops at the first fault. -/
def runAll (m : Machine) : List Segment → Machine
  | [] => { m with segments := [], phase := .halted }
  | segment :: segments =>
    match Act.runSegment m.setting segment m.bench with
    | .ok _ bench => runAll { m with bench } segments
    -- The segments below the one that faulted stay loaded, though no run will come to them.
    | .error fault bench => { m with segments, bench, phase := .faulted, fault := some fault }

/-- Runs everything that is loaded, unless the machine has run before. -/
def execute (m : Machine) : Machine :=
  match m.phase with
  | .running => m.runAll m.segments
  | _ => m

/-- How many items the stack holds. -/
def depth (m : Machine) : Nat :=
  m.bench.stack.depth

/-- Whether the top item is true. -/
def result (m : Machine) : Bool :=
  match m.bench.stack.top? with
  | some item => isTrue item
  | none => false

/-- The questions to the scheme, the first one first. -/
def signatureCalls (m : Machine) : List SignatureCall :=
  m.bench.calls.reverse

end Machine

end Countersign
