import Countersign.Proofs.Toml.Numeral
import Countersign.Proofs.Toml.Table

/-!
# `Countersign.Proofs.Toml.Line`: lines that give a name a number

A line with a bare key adds what stands behind the equals sign to the open table, or fails if the
name is there already (`run_lines_key`). If it is a number that stands there, all of the line is
taken, so lines can be read one after the other (`run_lines_settings`), and whatever follows them
is read as it would be without them, but for the names that are there now.
-/

set_option autoImplicit false

namespace Countersign.Toml

open Scan

/-- What begins with no blank has none to be skipped. -/
theorem dropWhile_isBlank {cs : List Char} (hspace : cs.head? ≠ some ' ')
    (htab : cs.head? ≠ some '\t') : cs.dropWhile isBlank = cs := by
  cases cs with
  | nil => rfl
  | cons c cs =>
      have hc : isBlank c = false := by
        rw [isBlank, decide_eq_false fun h => hspace (congrArg some h),
          decide_eq_false fun h => htab (congrArg some h)]
        rfl
      rw [List.dropWhile_cons_of_neg (by simp [hc])]

/-! ### Keys -/

/-- A name that needs no quotes as a key. -/
structure Bare (name : String) : Prop where
  ne_nil : name.toList ≠ []
  isBare : ∀ c ∈ name.toList, isBare c = true

namespace Bare

variable {name : String} (h : Bare name)

include h

/-- A bare key cannot be mistaken for the beginning of anything else. -/
theorem head?_ne (cs : List Char) {c : Char} (hc : Toml.isBare c = false) :
    (name.toList ++ cs).head? ≠ some c := by
  obtain ⟨d, ds, hname⟩ := List.exists_cons_of_ne_nil h.ne_nil
  rw [hname]
  intro heq
  have hd := h.isBare d (hname ▸ List.mem_cons_self)
  rw [Option.some.inj heq, hc] at hd
  cases hd

/-- A bare key is read up to a blank and an equals sign. -/
theorem run_key (cs : List Char) :
    key.run (name.toList ++ ' ' :: '=' :: cs) = some ([name], '=' :: cs) := by
  have hpart : keyPart.run (name.toList ++ ' ' :: '=' :: cs) = some (name, ' ' :: '=' :: cs) := by
    have htake : (name.toList ++ ' ' :: '=' :: cs).takeWhile Toml.isBare = name.toList := by
      rw [List.takeWhile_append_of_pos h.isBare, List.takeWhile_cons_of_neg (by decide),
        List.append_nil]
    have hdrop : (name.toList ++ ' ' :: '=' :: cs).dropWhile Toml.isBare = ' ' :: '=' :: cs := by
      rw [List.dropWhile_append_of_pos h.isBare, List.dropWhile_cons_of_neg (by decide)]
    rw [keyPart, run_bind, run_peek?, Option.bind_some]
    -- The first character of the name is no quote, so the name is read as it stands.
    split
    · next heq => exact absurd heq (h.head?_ne _ (by decide))
    · next heq => exact absurd heq (h.head?_ne _ (by decide))
    · rw [run_bind, run_takeWhile, Option.bind_some, htake, hdrop]
      dsimp only
      rw [if_neg h.ne_nil, run_pure, String.ofList_toList]
  rw [key, keyParts, blanks, run_bind, run_bind, run_takeWhile, Option.bind_some, run_pure,
    Option.bind_some, dropWhile_isBlank (h.head?_ne _ rfl) (h.head?_ne _ rfl), run_bind, hpart]
  rfl

end Bare

/-- A key of one part is added to the table that is open. -/
theorem run_assign_single (es : Entries) (name : String) (found : Found) (cs : List Char) :
    (assign es [name] found).run cs = (es.insert [] name found).map fun es' => (es', cs) :=
  run_lift _ _

/-! ### Lines -/

/-- At the end of a line the next one begins. -/
theorem run_lineEnd {rest : List Char} (h : AtLineEnd rest) :
    lineEnd.run rest = some ((), rest.tail) := by
  have hcomment : comment.run rest = none := by
    rw [comment, run_bind, run_char_of_numeric (.done h) rfl (by decide), Option.bind_none]
  cases rest with
  | nil => rfl
  | cons c rest =>
      obtain rfl := h c rfl
      rfl

/-- A line with a bare key, with anything at all behind the equals sign. -/
theorem run_lines_key {name : String} (hname : Bare name) (size : Nat) (d : Draft)
    (cs : List Char) :
    (d.lines (size + 1)).run (name.toList ++ ' ' :: '=' :: cs) =
      (value.run (cs.dropWhile isBlank)).bind fun answer =>
        (d.current.insert [] name answer.1).bind fun current =>
          (lineEnd >>= fun _ => Draft.lines size { d with current }).run answer.2 := by
  have hother {c : Char} (hc : isBare c = false) := hname.head?_ne (' ' :: '=' :: cs) hc
  have hassignment : (assignment value).run (name.toList ++ ' ' :: '=' :: cs) =
      (value.run (cs.dropWhile isBlank)).map fun answer => (([name], answer.1), answer.2) := by
    rw [assignment, run_bind, hname.run_key, Option.bind_some, run_bind, run_char_self,
      Option.bind_some, blanks, run_bind, run_bind, run_takeWhile, Option.bind_some, run_pure,
      Option.bind_some, run_bind]
    cases value.run (cs.dropWhile isBlank) <;> rfl
  rw [Draft.lines, run_bind, blanks, run_bind, run_takeWhile, Option.bind_some, run_pure,
    Option.bind_some, dropWhile_isBlank (hother rfl) (hother rfl), run_bind, run_peek?, Option.bind_some]
  -- A line that begins with a bare key is no other kind of line.
  split
  · next heq =>
      rw [List.head?_eq_none_iff, List.append_eq_nil_iff] at heq
      exact absurd heq.1 hname.ne_nil
  · next heq => exact absurd heq (hother rfl)
  · next heq => exact absurd heq (hother rfl)
  · next heq => exact absurd heq (hother rfl)
  · next heq => exact absurd heq (hother rfl)
  · rw [run_bind, hassignment]
    cases value.run (cs.dropWhile isBlank) with
    | none => rfl
    | some answer =>
        rw [Option.map_some, Option.bind_some, Option.bind_some, run_bind, run_assign_single]
        cases d.current.insert [] name answer.1 <;> rfl

/-- A name that is there already cannot be given another value, whatever it is. -/
theorem run_lines_repeated {name : String} (hname : Bare name) {d : Draft}
    (h : name ∈ d.current.map Prod.fst) (size : Nat) (cs : List Char) :
    (d.lines (size + 1)).run (name.toList ++ ' ' :: '=' :: cs) = none := by
  have hthere : (d.current.lookup name).isSome = true := by
    rw [Option.isSome_iff_ne_none, Ne, Entries.lookup_eq_none_iff, not_not]
    exact h
  -- The value is read before the name is looked up, and may already be what is refused.
  rw [run_lines_key hname]
  simp only [Entries.insert_nil, if_pos hthere, Option.bind_none]
  cases value.run (cs.dropWhile isBlank) <;> rfl

/-! ### Lines with numbers -/

/-- A line that gives a name a number. -/
def numberLine (l : String × Nat) : String :=
  l.1 ++ " = " ++ Decimal.ofNat l.2

/-- Lines that give names numbers, each with its end. -/
def numberLines (ls : List (String × Nat)) : String :=
  String.join (ls.map fun l => numberLine l ++ "\n")

/-- What a line that gives a name a number adds to a table. -/
def numberEntry (l : String × Nat) : String × Entry :=
  (l.1, .value (.integer l.2))

/-- A line is a name, an equals sign and the digits of a number. -/
theorem toList_numberLine (l : String × Nat) :
    (numberLine l).toList = l.1.toList ++ ' ' :: '=' :: ' ' :: Decimal.chars l.2 := by
  rw [numberLine, String.toList_append, String.toList_append, Decimal.toList_ofNat,
    List.append_assoc]
  rfl

/-- The first line stands in front of the others. -/
theorem toList_numberLines_cons (l : String × Nat) (ls : List (String × Nat)) :
    (numberLines (l :: ls)).toList
      = (numberLine l).toList ++ '\n' :: (numberLines ls).toList := by
  rw [numberLines, String.toList_join, List.map_cons, List.flatMap_cons, String.toList_append,
    List.append_assoc, numberLines, String.toList_join]
  rfl

/-- The lines give different names numbers of 63 bits. -/
structure Plain (ls : List (String × Nat)) : Prop where
  bare : ∀ l ∈ ls, Bare l.1
  fits : ∀ l ∈ ls, l.2 < 2 ^ 63
  nodup : (ls.map Prod.fst).Nodup

/-- A line that gives a new name a number adds the name to the table that is open. -/
theorem run_lines_numberLine {l : String × Nat} (hbare : Bare l.1) (hfits : l.2 < 2 ^ 63) {d : Draft}
    (hfresh : l.1 ∉ d.current.map Prod.fst) {rest : List Char} (hrest : AtLineEnd rest)
    (size : Nat) :
    (d.lines (size + 1)).run ((numberLine l).toList ++ rest)
      = (Draft.lines size { d with current := d.current ++ [numberEntry l] }).run rest.tail := by
  have hthere : ¬ (d.current.lookup l.1).isSome = true := by
    rw [Entries.lookup_eq_none_iff.mpr hfresh]
    exact Bool.false_ne_true
  have hdigits : (' ' :: (Decimal.chars l.2 ++ rest)).dropWhile isBlank
      = Decimal.chars l.2 ++ rest := by
    have hnumeric := numeric_chars l.2 hrest
    rw [List.dropWhile_cons_of_pos rfl, dropWhile_isBlank (hnumeric.head?_ne rfl (by decide))
      (hnumeric.head?_ne rfl (by decide))]
  have hline : (numberLine l).toList ++ rest
      = l.1.toList ++ ' ' :: '=' :: ' ' :: (Decimal.chars l.2 ++ rest) := by
    rw [toList_numberLine, List.append_assoc]
    rfl
  rw [hline, run_lines_key hbare, hdigits, run_value_chars hrest hfits, Option.bind_some,
    Entries.insert_nil, if_neg hthere, Option.bind_some, run_bind, run_lineEnd hrest]
  rfl

/-- Lines that give names numbers are taken one by one, and what follows is read with the names
there. -/
theorem run_lines_numberLines {ls : List (String × Nat)} (hbare : ∀ l ∈ ls, Bare l.1)
    (hfits : ∀ l ∈ ls, l.2 < 2 ^ 63) {d : Draft}
    (hnodup : (d.current.map Prod.fst ++ ls.map Prod.fst).Nodup) (size : Nat) (rest : List Char) :
    (d.lines (ls.length + size)).run ((numberLines ls).toList ++ rest)
      = (Draft.lines size { d with current := d.current ++ ls.map numberEntry }).run rest := by
  -- The names that were read before are in the draft, so the induction is over all drafts.
  induction ls generalizing d with
  | nil => rw [List.map_nil, List.append_nil, List.length_nil, Nat.zero_add]; rfl
  | cons l ls ih =>
      rw [List.forall_mem_cons] at hbare hfits
      have hfresh : l.1 ∉ d.current.map Prod.fst := fun hl =>
        (List.nodup_append.mp hnodup).2.2 l.1 hl l.1 List.mem_cons_self rfl
      have hnodup' : ((d.current ++ [numberEntry l]).map Prod.fst ++ ls.map Prod.fst).Nodup := by
        rw [List.map_append, List.append_assoc]
        exact hnodup
      calc (d.lines ((l :: ls).length + size)).run ((numberLines (l :: ls)).toList ++ rest)
          = (d.lines (ls.length + size + 1)).run
              ((numberLine l).toList ++ '\n' :: ((numberLines ls).toList ++ rest)) := by
            rw [toList_numberLines_cons, List.append_assoc, List.length_cons,
              Nat.add_right_comm]
            rfl
        _ = (Draft.lines (ls.length + size) { d with current := d.current ++ [numberEntry l] }).run
              ((numberLines ls).toList ++ rest) :=
            run_lines_numberLine hbare.1 hfits.1 hfresh (atLineEnd_newline _) _
        _ = _ := by
            rw [ih hbare.2 hfits.2 hnodup', List.map_cons, List.append_assoc]
            rfl

end Countersign.Toml
