import Countersign.Proofs.Toml.Lasting
import Countersign.Proofs.Toml.Line

/-!
# `Countersign.Proofs.Toml.Document`: documents that begin with lines of numbers

A document that is nothing but lines with numbers is read as those names and numbers, in the order
of the lines (`read?_of_isWritten`). Of a document that only begins with such lines it can still be
said what the next line does if it has a bare key: a name that one of the lines has already makes
the document unreadable (`read?_of_repeated`), and any other is among the names at the top
(`mem_names_of_read?`), whatever stands behind the equals sign and in the lines after it.
-/

set_option autoImplicit false

namespace Countersign.Toml

open Scan

/-- The names at the top and what they stand for, with the open table put into its place. -/
def Draft.names? (d : Draft) : Option (List (String × Found)) :=
  d.close?.map fun es => es.map fun p => (p.1, p.2.found)

/-- A document that begins with no mark for the order of bytes is read line by line. -/
theorem read?_eq {input : String} (h : input.toList.head? ≠ some '\ufeff') :
    read? input = ((Draft.lines (input.toList.length + 1) {}).run input.toList).bind fun answer =>
      answer.1.names? := by
  rw [read?, if_neg h]
  refine Option.bind_congr fun answer _ => ?_
  rw [Draft.names?, Option.map_eq_bind]
  rfl

/-- A document has at least as many characters as lines. -/
theorem length_le_numberLines (ls : List (String × Nat)) :
    ls.length ≤ (numberLines ls).toList.length := by
  induction ls with
  | nil => exact Nat.zero_le _
  | cons l ls ih =>
      rw [toList_numberLines_cons, List.length_cons, List.length_append, List.length_cons]
      omega

/-- Whatever stands behind plain lines is read with their names there. -/
theorem read?_numberLines_append {ls : List (String × Nat)} (h : Plain ls) (rest : String)
    (hrest : rest.toList.head? ≠ some '\ufeff') :
    ∃ size, rest.toList.length < size ∧ read? (numberLines ls ++ rest)
      = ((Draft.lines size { current := ls.map numberEntry }).run rest.toList).bind fun answer =>
          answer.1.names? := by
  have hmark : (numberLines ls ++ rest).toList.head? ≠ some '\ufeff' := by
    rw [String.toList_append]
    cases ls with
    | nil => exact hrest
    | cons l ls =>
        rw [toList_numberLines_cons, toList_numberLine, List.append_assoc, List.append_assoc]
        exact (h.bare l List.mem_cons_self).head?_ne _ rfl
  have hlength := length_le_numberLines ls
  refine ⟨(numberLines ls).toList.length - ls.length + rest.toList.length + 1, by omega, ?_⟩
  have hsize : (numberLines ls ++ rest).toList.length + 1
      = ls.length + ((numberLines ls).toList.length - ls.length + rest.toList.length + 1) := by
    rw [String.toList_append, List.length_append]
    omega
  have hnodup : (([] : Entries).map Prod.fst ++ ls.map Prod.fst).Nodup := h.nodup
  rw [read?_eq hmark, hsize, String.toList_append,
    run_lines_numberLines (d := {}) h.bare h.fits hnodup]
  rfl

/-! ### Nothing but plain lines -/

/-- The document has these lines and no others. The last one may do without its end. -/
def IsWritten (ls : List (String × Nat)) (input : String) : Prop :=
  input = numberLines ls ∨ input ++ "\n" = numberLines ls

/-- The last of plain lines is plain, gives a new name a number, and leaves plain lines. -/
theorem Plain.of_concat {ls : List (String × Nat)} {l : String × Nat} (h : Plain (ls ++ [l])) :
    Plain ls ∧ Bare l.1 ∧ l.2 < 2 ^ 63 ∧ l.1 ∉ ls.map Prod.fst := by
  have hlast : l ∈ ls ++ [l] := List.mem_append_right ls List.mem_cons_self
  have hnodup := h.nodup
  rw [List.map_append, List.nodup_append] at hnodup
  exact ⟨⟨fun l' hl' => h.bare l' (List.mem_append_left _ hl'),
      fun l' hl' => h.fits l' (List.mem_append_left _ hl'), hnodup.1⟩,
    h.bare l hlast, h.fits l hlast,
    fun hl => hnodup.2.2 l.1 hl l.1 List.mem_cons_self rfl⟩

/-- The last line stands behind the others. -/
theorem numberLines_concat (ls : List (String × Nat)) (l : String × Nat) :
    numberLines (ls ++ [l]) = numberLines ls ++ numberLine l ++ "\n" := by
  rw [← String.toList_inj]
  simp only [numberLines, String.toList_join, String.toList_append, List.map_append, List.map_cons,
    List.map_nil, List.flatMap_append, List.flatMap_cons, List.flatMap_nil, List.append_nil,
    List.append_assoc]

/-- If the last line has no end, it stands behind lines that all have theirs. -/
theorem exists_concat_of_isWritten {ls : List (String × Nat)} {input : String}
    (h : input ++ "\n" = numberLines ls) :
    ∃ ls' l, ls = ls' ++ [l] ∧ input = numberLines ls' ++ numberLine l := by
  rcases List.eq_nil_or_concat ls with rfl | ⟨ls', l, rfl⟩
  · have hlength := congrArg (fun s => s.toList.length) h
    rw [String.toList_append, List.length_append] at hlength
    cases hlength
  · rw [List.concat_eq_append, numberLines_concat] at h
    have hchars := congrArg String.toList h
    rw [String.toList_append, String.toList_append] at hchars
    exact ⟨ls', l, List.concat_eq_append, String.toList_inj.mp (List.append_cancel_right hchars)⟩

/-- At the end of a document nothing more is read. -/
theorem run_lines_done (size : Nat) (d : Draft) :
    (d.lines (size + 1)).run [] = some (d, []) :=
  rfl

/-- The names and numbers are read in the order of the lines. -/
theorem read?_of_isWritten {ls : List (String × Nat)} (h : Plain ls) {input : String}
    (hinput : IsWritten ls input) :
    read? input = some (ls.map fun l => (l.1, .integer l.2)) := by
  have hnames : ({ current := ls.map numberEntry } : Draft).names?
      = some (ls.map fun l => (l.1, .integer l.2)) := by
    rw [Draft.names?, Draft.close?, Option.map_some, List.map_map]
    rfl
  rcases hinput with rfl | hinput
  · have hmark : "".toList.head? ≠ some '\ufeff' := by decide
    obtain ⟨size, hsize, hread⟩ := read?_numberLines_append h _ hmark
    obtain ⟨size, rfl⟩ := Nat.exists_eq_add_one_of_ne_zero (Nat.ne_zero_of_lt hsize)
    rw [String.append_empty] at hread
    rw [hread, String.toList_empty, run_lines_done, Option.bind_some, hnames]
  · obtain ⟨ls, l, rfl, rfl⟩ := exists_concat_of_isWritten hinput
    obtain ⟨hfirst, hbare, hfits, hfresh⟩ := h.of_concat
    have hmark : (numberLine l).toList.head? ≠ some '\ufeff' := by
      rw [toList_numberLine]
      exact hbare.head?_ne _ rfl
    obtain ⟨size, hsize, hread⟩ := read?_numberLines_append hfirst _ hmark
    -- There is room for the line and for the end of the document.
    have hlength : 0 < (numberLine l).toList.length := by
      rw [toList_numberLine, List.length_append, List.length_cons]
      omega
    obtain ⟨size, rfl⟩ : ∃ size', size = size' + 1 + 1 := ⟨size - 2, by omega⟩
    have hfresh' : l.1 ∉ (ls.map numberEntry).map Prod.fst := by
      rwa [List.map_map]
    have hline := run_lines_numberLine hbare hfits (d := { current := ls.map numberEntry }) hfresh'
      atLineEnd_nil (size + 1)
    rw [List.append_nil, List.tail_nil, run_lines_done] at hline
    rw [hread, hline, Option.bind_some, ← hnames, List.map_append]
    rfl

/-! ### Another line with a bare key -/

section
variable {ls : List (String × Nat)} (h : Plain ls) {name : String} (hname : Bare name)
  (text : String)

include h hname

/-- The line is read with the names of the others there. -/
theorem read?_line :
    ∃ size, read? (numberLines ls ++ name ++ " = " ++ text)
      = ((Draft.lines (size + 1) { current := ls.map numberEntry }).run
          (name.toList ++ ' ' :: '=' :: ' ' :: text.toList)).bind fun answer => answer.1.names? := by
  have hrest : (name ++ " = " ++ text).toList = name.toList ++ ' ' :: '=' :: ' ' :: text.toList := by
    rw [String.toList_append, String.toList_append, List.append_assoc]
    rfl
  have hmark : (name ++ " = " ++ text).toList.head? ≠ some '\ufeff' := by
    rw [hrest]
    exact hname.head?_ne _ rfl
  obtain ⟨size, hsize, hread⟩ := read?_numberLines_append h _ hmark
  obtain ⟨size, rfl⟩ := Nat.exists_eq_add_one_of_ne_zero (Nat.ne_zero_of_lt hsize)
  rw [hrest, ← String.append_assoc, ← String.append_assoc] at hread
  exact ⟨size, hread⟩

/-- A document that gives a name two values cannot be read. -/
theorem read?_of_repeated (hrepeated : name ∈ ls.map Prod.fst) :
    read? (numberLines ls ++ name ++ " = " ++ text) = none := by
  obtain ⟨size, hread⟩ := read?_line h hname text
  have hthere : name ∈ (ls.map numberEntry).map Prod.fst := by
    rw [List.map_map]
    exact hrepeated
  rw [hread, run_lines_repeated hname (d := { current := ls.map numberEntry }) hthere,
    Option.bind_none]

/-- A name that was given a value is among those that are read. -/
theorem mem_names_of_read? {entries : List (String × Found)}
    (hread : read? (numberLines ls ++ name ++ " = " ++ text) = some entries) :
    name ∈ entries.map Prod.fst := by
  obtain ⟨size, hline⟩ := read?_line h hname text
  rw [hline, run_lines_key hname] at hread
  obtain ⟨⟨d, rest⟩, hrun, hnames⟩ := Option.bind_eq_some_iff.mp hread
  obtain ⟨⟨found, cs⟩, -, hrun⟩ := Option.bind_eq_some_iff.mp hrun
  obtain ⟨current, hinsert, hrun⟩ := Option.bind_eq_some_iff.mp hrun
  obtain ⟨⟨⟩, cs, -, hrun⟩ := run_bind_eq_some_iff.mp hrun
  -- Whatever follows the line, the name keeps standing for its value.
  have hstands : Draft.Stands { current } name found := Entries.lookup_of_insert_nil hinsert
  obtain ⟨es, hclose, rfl⟩ := Option.map_eq_some_iff.mp hnames
  have hlookup := Draft.lookup_of_close? (Draft.stands_of_run_lines hstands hrun) hclose
  rw [List.map_map]
  by_contra hmissing
  rw [Entries.lookup_eq_none_iff.mpr hmissing] at hlookup
  cases hlookup

end

end Countersign.Toml
