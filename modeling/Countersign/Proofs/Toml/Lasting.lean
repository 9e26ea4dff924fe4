import Countersign.Proofs.Toml.Scan
import Countersign.Proofs.Toml.Table
import Countersign.Toml.Document

/-!
# `Countersign.Proofs.Toml.Lasting`: what a name stands for cannot be changed later

Tables are opened, passed through and closed while a document is read, and some lose their place
for a while. A name at the top that stands for a value is never touched by any of that: whatever
follows in the document, either it cannot be read or the name still stands for that value
(`Draft.stands_of_run_lines`).

While the table at the top is open, the name is in it. After that it is in the table at the top as
far as that is finished, and the table that is open will be put into another place. `Draft.Stands`
is this invariant; it holds again after every header and every line.
-/

set_option autoImplicit false

namespace Countersign.Toml

open Scan

namespace Draft

/-- The name at the top stands for the value. If the table at the top is not the open one, then
the open one will not be put into the place of the name. -/
def Stands (d : Draft) (name : String) (found : Found) : Prop :=
  match d.header with
  | none => d.current.lookup name = some (.value found)
  | some (path, n, _) => d.root.lookup name = some (.value found) ∧ (path = [] → n ≠ name)

variable {name : String} {found : Found} {d d' : Draft}

/-- At the end the name stands for the value in the table at the top. -/
theorem lookup_of_close? (h : d.Stands name found) {es : Entries} (hclose : d.close? = some es) :
    es.lookup name = some (.value found) := by
  rw [close?] at hclose
  rw [Stands] at h
  split at hclose
  · next hheader =>
      rw [hheader] at h
      rw [← Option.some.inj hclose]
      exact h
  · next hheader =>
      rw [hheader] at h
      exact Entries.lookup_of_close h.1 h.2 hclose

/-- Opening another table does not take the name away. -/
theorem stands_of_open? (h : d.Stands name found) {parts : List String} {several : Bool}
    (hopen : d.open? parts several = some d') : d'.Stands name found := by
  rw [open?] at hopen
  obtain ⟨root, hclose, hopen⟩ := Option.bind_eq_some_iff.mp hopen
  obtain ⟨n, -, hopen⟩ := Option.bind_eq_some_iff.mp hopen
  have hroot := lookup_of_close? h hclose
  cases several with
  | true =>
      obtain ⟨root', htables, hd'⟩ := Option.bind_eq_some_iff.mp hopen
      have hroot' := Entries.lookup_of_openTables hroot htables
      rw [← Option.some.inj hd']
      exact hroot'.symm
  | false =>
      obtain ⟨⟨root', current⟩, htable, hd'⟩ := Option.bind_eq_some_iff.mp hopen
      have hroot' := Entries.lookup_of_openTable hroot htable
      rw [← Option.some.inj hd']
      exact hroot'.symm

/-- A line that opens a table leaves the name where it is. -/
theorem stands_of_run_header? (h : d.Stands name found) {cs rest : List Char}
    (hrun : d.header?.run cs = some (d', rest)) : d'.Stands name found := by
  rw [header?] at hrun
  obtain ⟨⟨⟩, cs, -, hrun⟩ := run_bind_eq_some_iff.mp hrun
  obtain ⟨next, cs, -, hrun⟩ := run_bind_eq_some_iff.mp hrun
  split at hrun
  · obtain ⟨⟨⟩, cs, -, hrun⟩ := run_bind_eq_some_iff.mp hrun
    obtain ⟨parts, cs, -, hrun⟩ := run_bind_eq_some_iff.mp hrun
    obtain ⟨⟨⟩, cs, -, hrun⟩ := run_bind_eq_some_iff.mp hrun
    exact stands_of_open? h (eq_some_of_run_lift hrun)
  · obtain ⟨parts, cs, -, hrun⟩ := run_bind_eq_some_iff.mp hrun
    obtain ⟨⟨⟩, cs, -, hrun⟩ := run_bind_eq_some_iff.mp hrun
    exact stands_of_open? h (eq_some_of_run_lift hrun)

/-- A line that gives another name a value leaves this one alone. -/
theorem stands_of_run_assign (h : d.Stands name found) {parts : List String} {f : Found}
    {current : Entries} {cs rest : List Char}
    (hrun : (assign d.current parts f).run cs = some (current, rest)) :
    Draft.Stands { d with current } name found := by
  rw [assign] at hrun
  split at hrun
  · cases hrun
  · have hinsert := eq_some_of_run_lift hrun
    rw [Stands] at h ⊢
    split at h
    · next hheader =>
        simp only [hheader]
        exact Entries.lookup_of_insert h hinsert
    · next hheader =>
        simp only [hheader]
        exact h

/-- Whatever follows in a document, the name still stands for the value. -/
theorem stands_of_run_lines {size : Nat} (h : d.Stands name found) {cs rest : List Char}
    (hrun : (d.lines size).run cs = some (d', rest)) : d'.Stands name found := by
  induction size generalizing d cs with
  | zero => cases hrun
  | succ size ih =>
      have hmore {d : Draft} {cs : List Char} (h : d.Stands name found)
          (hrun : (lineEnd >>= fun _ => d.lines size).run cs = some (d', rest)) :
          d'.Stands name found := by
        obtain ⟨⟨⟩, cs, -, hrun⟩ := run_bind_eq_some_iff.mp hrun
        exact ih h hrun
      -- A line is empty, has only a comment, opens a table, or gives a key a value.
      rw [lines] at hrun
      obtain ⟨⟨⟩, cs, -, hrun⟩ := run_bind_eq_some_iff.mp hrun
      obtain ⟨next, cs, -, hrun⟩ := run_bind_eq_some_iff.mp hrun
      split at hrun
      · cases hrun
        exact h
      · exact hmore h hrun
      · exact hmore h hrun
      · exact hmore h hrun
      · obtain ⟨opened, cs, hheader, hrun⟩ := run_bind_eq_some_iff.mp hrun
        exact hmore (stands_of_run_header? h hheader) hrun
      · obtain ⟨⟨parts, f⟩, cs, -, hrun⟩ := run_bind_eq_some_iff.mp hrun
        obtain ⟨current, cs, hassign, hrun⟩ := run_bind_eq_some_iff.mp hrun
        exact hmore (stands_of_run_assign h hassign) hrun

end Draft

end Countersign.Toml
