import Mathlib.Data.List.Basic
import Countersign.Toml.Table

/-!
# `Countersign.Proofs.Toml.Table`: a value in a table stays as it is

All changes to a table go through `Entries.change`, and a value is in the way of it. So a name that
stands for a value goes on standing for it, unless the change is made right at the top of the table
(`lookup_of_change`). Of the changes that are made there, adding leaves the names alone that are
there already, and opening a table looks at the name first. Only closing a table can put something
into the place of a value, if the table has its name.
-/

set_option autoImplicit false

namespace Countersign.Toml

namespace Entries

variable {name : String} {found : Found} {es es' : Entries}

/-! ### Names and what they stand for -/

/-- A name can be added if it is not there yet. -/
theorem insert_nil (es : Entries) (name : String) (found : Found) :
    es.insert [] name found =
      if (es.lookup name).isSome then none else some (es ++ [(name, .value found)]) :=
  rfl

/-- A name stands for nothing if it is not in the table. -/
theorem lookup_eq_none_iff : es.lookup name = none ↔ name ∉ es.map Prod.fst := by
  rw [List.lookup_eq_none_iff, List.mem_map, not_exists]
  refine forall_congr' fun p => ?_
  rw [not_and, bne_iff_ne, ne_comm, Ne]

/-- A name that was added stands for its value. -/
theorem lookup_of_insert_nil (h : es.insert [] name found = some es') :
    es'.lookup name = some (.value found) := by
  rw [insert_nil] at h
  split at h
  · cases h
  · next hthere =>
      rw [Option.isSome_iff_ne_none, Ne, not_not] at hthere
      rw [← Option.some.inj h, List.lookup_append, hthere, Option.none_or, List.lookup_cons_self]

/-- Putting something under another name does not change what the name stands for. -/
theorem lookup_put_of_ne {n : String} (hn : n ≠ name) (es : Entries) (e : Entry) :
    (es.put n e).lookup name = es.lookup name := by
  have hother : (name == n) = false := beq_false_of_ne hn.symm
  induction es with
  | nil => rw [put, List.lookup_cons, hother]
  | cons p es ih =>
      obtain ⟨m, e'⟩ := p
      rw [put]
      -- In either case the two names are different from the one that is looked up.
      split
      · next heq =>
          rw [List.lookup_cons, List.lookup_cons, heq, hother]
      · rw [List.lookup_cons, List.lookup_cons, ih]

/-- Nor does taking another name out. -/
theorem lookup_filter_of_ne {n : String} (hn : n ≠ name) (es : Entries) :
    List.lookup name (es.filter (·.1 ≠ n)) = es.lookup name := by
  induction es with
  | nil => rfl
  | cons p es ih =>
      obtain ⟨m, e'⟩ := p
      by_cases heq : m = n
      · have hother : (name == m) = false := beq_false_of_ne (heq ▸ hn.symm)
        rw [List.filter_cons_of_neg (by simp [heq]), ih, List.lookup_cons, hother]
      · rw [List.filter_cons_of_pos (by simp [heq]), List.lookup_cons, List.lookup_cons, ih]

/-- What is added behind a name does not change what it stands for. -/
theorem lookup_append (h : es.lookup name = some (.value found)) (es' : Entries) :
    List.lookup name (es ++ es') = some (.value found) := by
  rw [List.lookup_append, h, Option.some_or]

/-! ### Changes -/

/-- A name keeps its value when a table is changed, unless the change is made right at the top. -/
theorem lookup_of_change {created : Origin} {act : Option Origin → Entries → Option Entries}
    {names : List String} {origin : Option Origin} (h : es.lookup name = some (.value found))
    (hact : names = [] → ∀ es', act origin es = some es' → es'.lookup name = some (.value found))
    (hchange : change created act names origin es = some es') :
    es'.lookup name = some (.value found) := by
  cases names with
  | nil => exact hact rfl es' hchange
  | cons n names =>
      rw [change] at hchange
      -- The first name leads to a table, so it is another one.
      have hne {e : Option Entry} (hn : es.lookup n = e) (he : e ≠ some (.value found)) :
          n ≠ name := by
        rintro rfl
        exact he (hn.symm.trans h)
      split at hchange
      · next hn =>
          obtain ⟨inner, -, hput⟩ := Option.bind_eq_some_iff.mp hchange
          rw [← Option.some.inj hput, lookup_put_of_ne (hne hn nofun), h]
      · cases hchange
      · next last hn =>
          obtain ⟨inner, -, hput⟩ := Option.bind_eq_some_iff.mp hchange
          rw [← Option.some.inj hput, lookup_put_of_ne (hne hn nofun), h]
      · next inner hn =>
          split at hchange
          · cases hchange
          · obtain ⟨inner, -, hput⟩ := Option.bind_eq_some_iff.mp hchange
            rw [← Option.some.inj hput, lookup_put_of_ne (hne hn nofun), h]

section
variable {path : List String} {n : String} (h : es.lookup name = some (.value found))

include h

/-- A name keeps its value when another one is added, anywhere in the table. -/
theorem lookup_of_insert {f : Found} (hinsert : es.insert path n f = some es') :
    es'.lookup name = some (.value found) := by
  refine lookup_of_change h (fun hpath inner hinner => ?_) hinsert
  subst hpath
  have hadded : es.insert [] n f = some inner := hinner
  rw [insert_nil] at hadded
  split at hadded
  · cases hadded
  · rw [← Option.some.inj hadded]
    exact lookup_append h _

/-- A name keeps its value when a table is put into another place. -/
theorem lookup_of_close {e : Entry} (hn : path = [] → n ≠ name)
    (hclose : es.close path n e = some es') : es'.lookup name = some (.value found) := by
  refine lookup_of_change h (fun hpath inner hinner => ?_) hclose
  rw [← Option.some.inj hinner, lookup_put_of_ne (hn hpath), h]

/-- A table cannot be opened under a name that stands for a value. -/
theorem lookup_of_openTable {inner : Entries} (hopen : es.openTable path n = some (es', inner)) :
    (path = [] → n ≠ name) ∧ es'.lookup name = some (.value found) := by
  rw [openTable] at hopen
  split at hopen
  · cases hopen
  · next inner hheld =>
      have hne : path = [] → n ≠ name := by
        rintro rfl rfl
        rw [openTable.held, h] at hheld
        cases hheld
      obtain ⟨es'', hchange, hes''⟩ := Option.bind_eq_some_iff.mp hopen
      cases hes''
      refine ⟨hne, lookup_of_change h (fun hpath inner hinner => ?_) hchange⟩
      rw [← Option.some.inj hinner, lookup_filter_of_ne (hne hpath), h]

/-- A list of tables cannot be opened under a name that stands for a value. -/
theorem lookup_of_openTables (hopen : es.openTables path n = some es') :
    (path = [] → n ≠ name) ∧ es'.lookup name = some (.value found) := by
  have hne : path = [] → n ≠ name := by
    rintro rfl rfl
    rw [openTables, change, h] at hopen
    cases hopen
  refine ⟨hne, lookup_of_change h (fun hpath inner hinner => ?_) hopen⟩
  split at hinner
  · rw [← Option.some.inj hinner]
    exact lookup_append h _
  · rw [← Option.some.inj hinner, h]
  · cases hinner

end

end Entries

end Countersign.Toml
