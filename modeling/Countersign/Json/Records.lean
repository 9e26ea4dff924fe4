import Countersign.Authorization.Request
import Countersign.Json.Reader
import Countersign.Json.Value
import Countersign.Machine.Limits
import Countersign.Machine.Phase

/-!
# `Countersign.Json.Records`: the records that are kept as JSON

A script hash is a string of digits and a phase is its name. Witnesses and limits are objects;
they may also be given as arrays of their fields in order. A witness needs all its fields and
may have others, limits may leave out any but have no others.
-/

set_option autoImplicit false

namespace Countersign

open Json

/-! ### Script hashes -/

/-- A script hash as JSON. -/
def ScriptHash.toJson (h : ScriptHash) : Value :=
  .string h.toHex

/-- Reads a script hash. -/
def ScriptHash.reader : Reader ScriptHash := do
  match ScriptHash.parse (← Reader.string "a string") with
  | .ok h => return h
  | .error cause => Reader.mismatch (.badHash cause)

/-! ### Phases -/

/-- A phase as JSON. -/
def Phase.toJson (p : Phase) : Value :=
  .string p.name

/-- The phase with a name that was read. -/
def Phase.named (name : String) : Reader Phase :=
  match Phase.ofName? name with
  | some p => return p
  | none => Reader.mismatch (.unknownVariant name (Phase.all.map Phase.name))

/-- Reads a phase, which is its name or an object with the name as its field and nothing in it. -/
def Phase.reader : Reader Phase := do
  match ← Reader.take with
  | .string pieces => Phase.named (← Reader.text pieces)
  | .openObject =>
    let p ← Phase.named (← Reader.name)
    Reader.expect .colon
    match ← Reader.take with
    | .null => Reader.expect .closeObject
    | token => Reader.wrongType token "unit"
    return p
  | _ => Reader.malformed

/-! ### Witnesses -/

/-- A byte string as JSON. -/
def Bytes.toJson (bs : Bytes) : Value :=
  .array (bs.map fun b => .number b.toNat)

/-- Reads a byte string. -/
def Bytes.reader : Reader Bytes := do
  let ns ← Reader.array (Reader.natural 255 "u8")
  return ns.map UInt8.ofNat

/-- A witness as JSON. -/
def Witness.toJson (w : Witness) : Value :=
  .object [("code", Bytes.toJson w.code), ("parameter", Bytes.toJson w.parameter)]

/-- Reads the field of a witness with a name, given those that were read before. -/
def Witness.field (read : Option Bytes × Option Bytes) (name : String) :
    Reader (Option Bytes × Option Bytes) := do
  if name = "code" then
    if read.1.isSome then Reader.mismatch (.duplicateField name)
    Reader.expect .colon
    return (some (← Bytes.reader), read.2)
  else if name = "parameter" then
    if read.2.isSome then Reader.mismatch (.duplicateField name)
    Reader.expect .colon
    return (read.1, some (← Bytes.reader))
  else
    Reader.expect .colon
    Reader.skip
    return read

/-- Reads a witness. -/
def Witness.reader : Reader Witness := do
  match ← Reader.take with
  | .openArray =>
    let expected := "struct Program with 2 elements"
    unless ← Reader.moreElements true do Reader.mismatch (.wrongLength 0 expected)
    let code ← Bytes.reader
    unless ← Reader.moreElements false do Reader.mismatch (.wrongLength 1 expected)
    let parameter ← Bytes.reader
    Reader.expect .closeArray
    return ⟨code, parameter⟩
  | .openObject =>
    match ← Reader.fields Witness.field (← Reader.remaining) true (none, none) with
    | (none, _) => Reader.mismatch (.missingField "code")
    | (_, none) => Reader.mismatch (.missingField "parameter")
    | (some code, some parameter) =>
      Reader.expect .closeObject
      return ⟨code, parameter⟩
  | token => Reader.wrongType token "struct Program"

/-! ### Limits -/

/-- Limits as JSON. -/
def Limits.toJson (l : Limits) : Value :=
  .object (Limit.all.map fun k => (k.name, .number (l.get k).toNat))

/-- Reads the value of a limit. -/
def Limit.reader (k : Limit) : Reader UInt64 := do
  return UInt64.ofNat (← Reader.natural (UInt64.size - 1) k.valueName)

/-- Reads the field of limits with a name, given the limits so far and those that were read. -/
def Limits.field (read : Limits × List Limit) (name : String) : Reader (Limits × List Limit) := do
  match Limit.ofName? name with
  | none => Reader.mismatch (.unknownField name (Limit.all.map Limit.name))
  | some k =>
    if k ∈ read.2 then Reader.mismatch (.duplicateField name)
    Reader.expect .colon
    return (read.1.set k (← k.reader), k :: read.2)

/-- Reads the elements of an array as limits, in the order in which these are declared, until
there are no more. -/
def Limits.elements : List Limit → (first : Bool) → Limits → Reader Limits
  | [], _, l => return l
  | k :: ks, first, l => do
    if ← Reader.moreElements first then
      Limits.elements ks false (l.set k (← k.reader))
    else return l

/-- Reads limits. -/
def Limits.reader : Reader Limits := do
  match ← Reader.take with
  | .openArray =>
    let l ← Limits.elements Limit.all true Limits.standard
    Reader.expect .closeArray
    return l
  | .openObject =>
    let (l, _) ← Reader.fields Limits.field (← Reader.remaining) true (Limits.standard, [])
    Reader.expect .closeObject
    return l
  | token => Reader.wrongType token "struct EngineConfig"

end Countersign
