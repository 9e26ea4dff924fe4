import Countersign.Toml.Scalar
import Countersign.Toml.Table

/-!
# `Countersign.Toml.Document`: reading a document

`Document.read?` reads a whole text as TOML 1.0, and answers with the names at its top and what
they stand for, in the order in which they came up. A mistake anywhere, a name that is defined
twice, or brackets nested 80 deep make it fail; it does not say which, or where.
-/

set_option autoImplicit false

namespace Countersign.Toml

open Scan

/-- The elements of an array up to its end, of which there are `size` at most. -/
def arrayRest (element : Scan Found) : (size : Nat) → Scan Unit
  | 0 => failure
  | size + 1 => do
    gap
    match ← peek? with
    | some ']' => char ']'
    | _ =>
      let _ ← element
      gap
      match ← peek? with
      | some ',' =>
        char ','
        arrayRest element size
      | _ => char ']'

/-- A name with its value. -/
def assignment (element : Scan Found) : Scan (List String × Found) := do
  let parts ← key
  char '='
  blanks
  return (parts, ← element)

/-- The entries with a value added under a key. -/
def assign (es : Entries) (parts : List String) (found : Found) : Scan Entries :=
  match parts.getLast? with
  | none => failure
  | some name => StateT.lift (es.insert parts.dropLast name found)

/-- The names and values of a table within braces up to its end, of which there are `size` at
most. -/
def inlineRest (element : Scan Found) : (size : Nat) → Entries → Scan Unit
  | 0, _ => failure
  | size + 1, es => do
    let (parts, found) ← assignment element
    let es ← assign es parts found
    blanks
    match ← peek? with
    -- In contrast to arrays, no comma may stand in front of the end.
    | some ',' =>
      char ','
      inlineRest element size es
    | _ => char '\x7d'

/-- A value with brackets nested at most `depth` deep. -/
def valueWithin : (depth : Nat) → Scan Found
  | 0 => scalar
  | depth + 1 => do
    match ← peek? with
    | some '[' =>
      char '['
      arrayRest (valueWithin depth) (← remaining)
      return .sequence
    | some '\x7b' =>
      char '\x7b'
      blanks
      match ← peek? with
      | some '\x7d' => char '\x7d'
      | _ => inlineRest (valueWithin depth) (← remaining) []
      return .map
    | _ => scalar

/-- A value. -/
def value : Scan Found :=
  valueWithin 79

/-- A document that is being read: the table at the top, and the one that names are being added
to. -/
structure Draft where
  root : Entries := []
  /-- The names that lead to the open table, its own name, and whether it is one of several. At
  first the table at the top itself is open. -/
  header : Option (List String × String × Bool) := none
  current : Entries := []

namespace Draft

/-- The draft with the open table put into its place. -/
def close? (d : Draft) : Option Entries :=
  match d.header with
  | none => some d.current
  | some (path, name, several) =>
    d.root.close path name (if several then .tables d.current else .table .header d.current)

/-- The draft with another table open. -/
def open? (d : Draft) (parts : List String) (several : Bool) : Option Draft := do
  let root ← d.close?
  let name ← parts.getLast?
  let path := parts.dropLast
  if several then
    return ⟨← root.openTables path name, some (path, name, true), []⟩
  else
    let (root, current) ← root.openTable path name
    return ⟨root, some (path, name, false), current⟩

/-- Reads the header of a table. -/
def header? (d : Draft) : Scan Draft := do
  char '['
  match ← peek? with
  | some '[' =>
    char '['
    let parts ← key
    text "]]"
    StateT.lift (d.open? parts true)
  | _ =>
    let parts ← key
    char ']'
    StateT.lift (d.open? parts false)

/-- Reads the rest of a document, line by line. There are no more lines than `size`, the number
of characters, and one. -/
def lines : (size : Nat) → Draft → Scan Draft
  | 0, _ => failure
  | size + 1, d => do
    blanks
    match ← peek? with
    | none => return d
    | some '\n' | some '\r' | some '#' =>
      lineEnd
      lines size d
    | some '[' =>
      let d ← d.header?
      lineEnd
      lines size d
    | some _ =>
      let (parts, found) ← assignment value
      let current ← assign d.current parts found
      lineEnd
      lines size { d with current }

end Draft

/-- What a name at the top of a document stands for. -/
def Entry.found : Entry → Found
  | .value found => found
  | .table _ _ => .map
  | .tables _ => .sequence

/-- Reads a document: the names at its top and what they stand for. A mark for the order of bytes
may stand in front. -/
def read? (input : String) : Option (List (String × Found)) := do
  let cs := input.toList
  let cs := if cs.head? = some '\ufeff' then cs.tail else cs
  let (draft, _) ← (Draft.lines (cs.length + 1) {}).run cs
  let entries ← draft.close?
  return entries.map fun (name, e) => (name, e.found)

end Countersign.Toml
