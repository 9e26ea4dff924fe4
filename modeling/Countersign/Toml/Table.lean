import Countersign.Schema.Mismatch

/-!
# `Countersign.Toml.Table`: the tables of a document

A document is a table of names, in the order in which they came up. A name stands for a value or
for a table inside; the latter is defined once, either under a header of its own or by keys with
points, and must not be added to in the other way afterwards. Tables that a header only passes
through may still get a header later.

Of the values that a table holds only what they are is kept.
-/

set_option autoImplicit false

namespace Countersign.Toml

/-- How a table came about. -/
inductive Origin where
  /-- It has a header of its own. -/
  | header
  /-- A header for a table inside passes through it. -/
  | passed
  /-- A key with points passes through it. -/
  | dotted
  deriving DecidableEq

/-- What a name stands for. -/
inductive Entry where
  | value (found : Found)
  | table (origin : Origin) (entries : List (String × Entry))
  /-- Several tables under one name; only the last can be added to. -/
  | tables (last : List (String × Entry))

/-- The names of a table and what they stand for. -/
abbrev Entries := List (String × Entry)

namespace Entries

/-- The entries with another meaning for a name, which keeps its place, or with the name added at
the end. -/
def put (es : Entries) (name : String) (e : Entry) : Entries :=
  match es with
  | [] => [(name, e)]
  | (n, e') :: es => if n = name then (n, e) :: es else (n, e') :: put es name e

/-- Changes the table that a row of names leads to from a table of the given origin. Tables that
are missing on the way come about as `created`. A value is in the way, and so is a table with a
header if the names come from a key. `act` is given the origin of the table, if it is one of
its own. -/
def change (created : Origin) (act : Option Origin → Entries → Option Entries) :
    (names : List String) → Option Origin → Entries → Option Entries
  | [], origin, es => act origin es
  | name :: names, _, es =>
    match es.lookup name with
    | none => do
      let inner ← change created act names (some created) []
      return es.put name (.table created inner)
    | some (.value _) => none
    | some (.tables last) => do
      return es.put name (.tables (← change created act names none last))
    | some (.table origin inner) =>
      if created = .dotted ∧ origin = .header then none
      else do
        return es.put name (.table origin (← change created act names (some origin) inner))

/-- Adds a value under a key. The name must be new, and the table that the other parts of the key
lead to must have come about by keys with points. -/
def insert (es : Entries) (path : List String) (name : String) (found : Found) : Option Entries :=
  change .dotted (fun origin inner =>
    if path ≠ [] ∧ origin ≠ some .dotted then none
    else if (inner.lookup name).isSome then none
    else some (inner ++ [(name, .value found)])) path none es

/-- Makes room for a table under a header, and gives what it holds already. A table that was only
passed through so far loses its place. -/
def openTable (es : Entries) (path : List String) (name : String) : Option (Entries × Entries) :=
  match held path es with
  | none => none
  | some inner => do
    -- The table is put in again when it is closed, and comes behind the other names then.
    return (← change .passed (fun _ es => some (es.filter (·.1 ≠ name))) path none es, inner)
where
  /-- What the table to be opened holds. -/
  held : List String → Entries → Option Entries
    | [], es =>
      match es.lookup name with
      | none => some []
      | some (.table .passed inner) => some inner
      | some _ => none
    | p :: ps, es =>
      match es.lookup p with
      | none => some []
      | some (.value _) => none
      | some (.tables inner) | some (.table _ inner) => held ps inner

/-- Makes room for one more table under a name that stands for several. -/
def openTables (es : Entries) (path : List String) (name : String) : Option Entries :=
  change .passed (fun _ es =>
    match es.lookup name with
    | none => some (es ++ [(name, .tables [])])
    | some (.tables _) => some es
    | some _ => none) path none es

/-- Puts a finished table, or the last of several, into its place. -/
def close (es : Entries) (path : List String) (name : String) (e : Entry) : Option Entries :=
  change .passed (fun _ es => some (es.put name e)) path none es

end Entries

end Countersign.Toml
