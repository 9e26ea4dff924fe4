import Mathlib.Algebra.Group.Nat.Defs
import Mathlib.Data.List.Basic
import Countersign.Proofs.Decimal.Digits
import Countersign.Proofs.Toml.Scan
import Countersign.Toml.Document

/-!
# `Countersign.Proofs.Toml.Numeral`: a row of digits is a whole number

Values are told apart by trying one reader after the other, and the reader for whole numbers comes
last. Most of what is in front of it wants a character that is no digit sooner or later: dates want
a dash, times want a colon, fractions want a point. On a line that has nothing but digits up to its
end (`Numeric`) they do not find one, however many digits there are.

`run_value_chars` puts this together: the digits of a number are read as that number.
-/

set_option autoImplicit false

namespace Countersign.Toml

open Scan

/-! ### Digits up to the end of a line -/

/-- The text is at its end or at the end of a line. -/
def AtLineEnd (rest : List Char) : Prop :=
  ∀ c ∈ rest.head?, c = '\n'

/-- The end of the text ends a line. -/
theorem atLineEnd_nil : AtLineEnd [] := by
  intro c hc
  cases hc

/-- So does the character for it. -/
theorem atLineEnd_newline (rest : List Char) : AtLineEnd ('\n' :: rest) := by
  intro c hc
  cases hc
  rfl

/-- There is nothing but digits up to the end of the line. -/
inductive Numeric : List Char → Prop where
  | done {rest : List Char} (h : AtLineEnd rest) : Numeric rest
  | digit {c : Char} {cs : List Char} (hc : c.isDigit = true) (h : Numeric cs) : Numeric (c :: cs)

namespace Numeric

/-- What comes next is a digit or the end of the line. -/
theorem head {cs : List Char} (h : Numeric cs) : ∀ c ∈ cs.head?, c.isDigit = true ∨ c = '\n' := by
  cases h with
  | done h => exact fun c hc => .inr (h c hc)
  | digit hd h =>
      rintro c ⟨⟩
      exact .inl hd

/-- What is neither a digit nor the end of a line does not come next. -/
theorem head?_ne {cs : List Char} (h : Numeric cs) {c : Char} (hc : c.isDigit = false)
    (hn : c ≠ '\n') : cs.head? ≠ some c := by
  intro heq
  rcases h.head c heq with hdigit | rfl
  · rw [hc] at hdigit
    cases hdigit
  · exact hn rfl

/-- More digits in front of the end of a line are still nothing but digits. -/
theorem append {ds rest : List Char} (hds : ∀ c ∈ ds, c.isDigit = true) (hrest : AtLineEnd rest) :
    Numeric (ds ++ rest) := by
  induction ds with
  | nil => exact .done hrest
  | cons d ds ih =>
      exact .digit (hds d List.mem_cons_self) (ih fun c hc => hds c (List.mem_cons_of_mem d hc))

end Numeric

/-- The digits of a number are nothing but digits. -/
theorem numeric_chars (n : Nat) {rest : List Char} (hrest : AtLineEnd rest) :
    Numeric (Decimal.chars n ++ rest) :=
  .append (fun _ => Decimal.isDigit_of_mem_chars) hrest

section
variable {cs : List Char} (h : Numeric cs)

include h

/-- No other character is found. -/
theorem run_char_of_numeric {c : Char} (hc : c.isDigit = false) (hn : c ≠ '\n') :
    (char c).run cs = none :=
  run_char_of_ne (h.head?_ne hc hn)

/-- No word is found, as its first character is not. -/
theorem run_text_of_numeric {s : String} {c : Char} {t : List Char} (hs : s.toList = c :: t)
    (hc : c.isDigit = false) (hn : c ≠ '\n') : (text s).run cs = none :=
  run_text_of_ne hs (h.head?_ne hc hn)

/-- There is no sign. -/
theorem run_sign_of_numeric : sign.run cs = some (false, cs) := by
  rw [sign, run_bind, run_peek?, Option.bind_some]
  split
  · next heq => exact absurd heq (h.head?_ne rfl (by decide))
  · next heq => exact absurd heq (h.head?_ne rfl (by decide))
  · rfl

/-! ### Readers that want something else -/

/-- Digits are no string. -/
theorem run_string_of_numeric : string.run cs = none := by
  have hdouble := run_char_of_numeric h (c := '"') rfl (by decide)
  have hsingle := run_char_of_numeric h (c := '\x27') rfl (by decide)
  simp only [string, run_orElse, multiLine, basicString, literalString, run_bind, hdouble, hsingle,
    Option.bind_none, Option.or_none]

/-- They are neither true nor false. -/
theorem run_truth_of_numeric : truth.run cs = none := by
  simp only [truth, run_orElse, run_bind,
    run_text_of_numeric h (s := "true") rfl rfl (by decide),
    run_text_of_numeric h (s := "false") rfl rfl (by decide), Option.bind_none, Option.or_none]

/-- They are no infinity, and no number that is none. -/
theorem run_special_of_numeric : special.run cs = none := by
  simp only [special, run_orElse, run_bind, run_sign_of_numeric h, Option.bind_some,
    run_text_of_numeric h (s := "inf") rfl rfl (by decide),
    run_text_of_numeric h (s := "nan") rfl rfl (by decide), Option.bind_none, Option.or_none]

/-- A number of a fixed width leaves digits and nothing else as well. -/
theorem numeric_of_run_fixedNumber {count n m : Nat} {rest : List Char}
    (hrun : (fixedNumber count n).run cs = some (m, rest)) : Numeric rest := by
  -- Every digit that is taken leaves digits. At the end of the line there is none to take.
  induction count generalizing n cs with
  | zero =>
      cases hrun
      exact h
  | succ count ih =>
      rw [fixedNumber] at hrun
      obtain ⟨d, cs', hd, hmore⟩ := run_bind_eq_some_iff.mp hrun
      cases h with
      | done hend =>
          have hnone : (satisfy Char.isDigit).run cs = none :=
            run_satisfy_of_neg fun c hc => by rw [hend c hc]; rfl
          rw [hnone] at hd
          cases hd
      | digit hc h =>
          rw [run_satisfy_of_pos hc] at hd
          cases hd
          exact ih h hmore

/-- Two digits leave digits and nothing else. -/
theorem numeric_of_run_twoDigits {least greatest : Nat} {rest : List Char}
    (hrun : (twoDigits least greatest).run cs = some ((), rest)) : Numeric rest := by
  rw [twoDigits] at hrun
  obtain ⟨n, cs', hn, hrun⟩ := run_bind_eq_some_iff.mp hrun
  have hcs' := numeric_of_run_fixedNumber h hn
  split at hrun
  · cases hrun
    exact hcs'
  · cases hrun

/-- Digits are no date, which has a dash behind the year. -/
theorem run_date_of_numeric : date.run cs = none := by
  rw [Option.eq_none_iff_forall_ne_some]
  intro answer hrun
  rw [date] at hrun
  obtain ⟨year, cs', hyear, hrun⟩ := run_bind_eq_some_iff.mp hrun
  have hdash := run_char_of_numeric (numeric_of_run_fixedNumber h hyear) (c := '-') rfl (by decide)
  rw [run_bind, hdash] at hrun
  cases hrun

/-- They are no time of day, which has a colon behind the hour. -/
theorem run_timeOfDay_of_numeric : timeOfDay.run cs = none := by
  rw [Option.eq_none_iff_forall_ne_some]
  intro answer hrun
  rw [timeOfDay] at hrun
  obtain ⟨⟨⟩, cs', hhour, hrun⟩ := run_bind_eq_some_iff.mp hrun
  have hcolon := run_char_of_numeric (numeric_of_run_twoDigits h hhour) (c := ':') rfl (by decide)
  rw [run_bind, hcolon] at hrun
  cases hrun

/-- So they are no time of any kind. -/
theorem run_time_of_numeric : time.run cs = none := by
  simp only [time, run_orElse, run_bind, run_date_of_numeric h, run_timeOfDay_of_numeric h,
    Option.bind_none, Option.or_none]

/-- The mark for a base has a letter in its second place. -/
theorem run_based_of_numeric (mark : String) {c : Char} (hmark : mark.toList = ['0', c])
    (hc : c.isDigit = false) (hn : c ≠ '\n') (base : Nat) : (based mark base).run cs = none := by
  have htext : (text mark).run cs = none := by
    cases h with
    | done hend => exact run_text_of_ne hmark fun hzero => absurd (hend '0' hzero) (by decide)
    | @digit d cs hd h =>
        -- A zero in front agrees with the mark; the letter of the mark is what is missing.
        by_cases hzero : d = '0'
        · subst hzero
          rw [run_text_cons hmark, run_char_self]
          show (char c >>= fun _ => [].forM char).run cs = none
          rw [run_bind, run_char_of_numeric h hc hn, Option.bind_none]
        · exact run_text_of_ne hmark fun heq => hzero (Option.some.inj heq)
  rw [based, run_bind, htext, Option.bind_none]

end

/-! ### Readers of numbers -/

section
variable {rest : List Char} (hrest : AtLineEnd rest)

include hrest

/-- Digits go on up to the end of the line. -/
theorem moreDigits_append {ds : List Char} (hds : ∀ c ∈ ds, c.isDigit = true) :
    moreDigits Char.isDigit (ds ++ rest) = (ds, rest) := by
  induction ds with
  | nil =>
      cases rest with
      | nil => rfl
      | cons c rest =>
          rw [hrest c rfl]
          rfl
  | cons d ds ih =>
      have hd : d.isDigit = true := hds d List.mem_cons_self
      have hscore : d ≠ '_' := fun heq => by
        rw [heq] at hd
        cases hd
      have hmore := ih fun c hc => hds c (List.mem_cons_of_mem d hc)
      -- An underscore would be passed over together with the digit behind it, and is no digit.
      rw [List.cons_append, moreDigits.eq_def]
      split
      · next heq => exact absurd (List.cons.inj heq).1 hscore
      · next heq =>
          obtain ⟨rfl, rfl⟩ := List.cons.inj heq
          rw [if_pos hd, hmore]
      · next heq => cases heq

/-- A row of digits is read up to the end of the line. -/
theorem run_digits_append {ds : List Char} (hne : ds ≠ []) (hds : ∀ c ∈ ds, c.isDigit = true) :
    (digits Char.isDigit).run (ds ++ rest) = some (ds, rest) := by
  obtain ⟨d, ds, rfl⟩ := List.exists_cons_of_ne_nil hne
  rw [digits, List.cons_append, run_bind, run_satisfy_of_pos (hds d List.mem_cons_self)]
  show some (d :: (moreDigits Char.isDigit (ds ++ rest)).1,
    (moreDigits Char.isDigit (ds ++ rest)).2) = _
  rw [moreDigits_append hrest fun c hc => hds c (List.mem_cons_of_mem d hc)]

/-- Zero is the only number that begins with a zero, and it has no other digits. -/
theorem run_decimalDigits_chars (n : Nat) :
    decimalDigits.run (Decimal.chars n ++ rest) = some (Decimal.chars n, rest) := by
  rw [decimalDigits, run_bind, run_peek?, Option.bind_some]
  rcases Nat.eq_zero_or_pos n with rfl | hpos
  · rw [show Decimal.chars 0 = ['0'] from by rw [Decimal.chars, if_pos (by decide)]; rfl]
    rfl
  · obtain ⟨d, ds, hchars⟩ := List.exists_cons_of_ne_nil (Decimal.chars_ne_nil n)
    have hhead : (Decimal.chars n ++ rest).head? ≠ some '0' := by
      have hfirst := Decimal.head?_chars_of_pos hpos
      rw [hchars] at hfirst ⊢
      exact hfirst
    split
    · next heq => exact absurd heq hhead
    · exact run_digits_append hrest (Decimal.chars_ne_nil n) fun _ => Decimal.isDigit_of_mem_chars

/-- A number without a point and without a power of ten is no fraction. -/
theorem run_fraction_chars (n : Nat) : fraction.run (Decimal.chars n ++ rest) = none := by
  have hpoint : fractionDigits.run rest = none := by
    rw [fractionDigits, run_bind, run_char_of_numeric (.done hrest) rfl (by decide),
      Option.bind_none]
  have hpower : powerOfTen.run rest = none := by
    have hletter : (satisfy fun c => c = 'e' || c = 'E').run rest = none :=
      run_satisfy_of_neg fun c hc => by rw [hrest c hc]; rfl
    rw [powerOfTen, run_bind, hletter, Option.bind_none]
  rw [fraction, run_bind, run_sign_of_numeric (numeric_chars n hrest), Option.bind_some, run_bind,
    run_decimalDigits_chars hrest, Option.bind_some, run_bind, run_optional_of_none hpoint,
    Option.bind_some, run_bind, run_optional_of_none hpower, Option.bind_some]
  rfl

end

/-- A decimal digit has the same value in any base. -/
theorem hexValue?_of_isDigit {c : Char} (hc : c.isDigit = true) :
    hexValue? c = some (c.toNat - 48) := by
  rw [Char.isDigit, Bool.and_eq_true, decide_eq_true_eq, decide_eq_true_eq] at hc
  have hrange : '0' ≤ c ∧ c ≤ '9' := hc
  rw [hexValue?, if_pos hrange]

/-- In base ten digits have the value that they have in decimal. -/
theorem valueIn_ten {ds : List Char} (hds : ∀ c ∈ ds, c.isDigit = true) :
    valueIn 10 ds = Decimal.value ds :=
  List.foldl_ext _ _ 0 fun n c hc => by rw [hexValue?_of_isDigit (hds c hc), Option.getD_some]

section
variable {rest : List Char} (hrest : AtLineEnd rest) {n : Nat} (hn : n < 2 ^ 63)

include hrest hn

/-- The digits of a number of 63 bits are read as that number. -/
theorem run_integer_chars :
    integer.run (Decimal.chars n ++ rest) = some (.integer n, rest) := by
  have h := numeric_chars n hrest
  have hvalue : valueIn 10 (Decimal.chars n) = n := by
    rw [valueIn_ten fun _ => Decimal.isDigit_of_mem_chars, Decimal.value_chars]
  have hdecimal : decimal.run (Decimal.chars n ++ rest) = some ((n : Int), rest) := by
    rw [decimal, run_bind, run_sign_of_numeric h, Option.bind_some, run_bind,
      run_decimalDigits_chars hrest, Option.bind_some, hvalue]
    rfl
  have hfits : -0x8000000000000000 ≤ (n : Int) ∧ (n : Int) < 0x8000000000000000 := by
    omega
  -- The other bases are tried first, and their marks are not there.
  rw [integer, run_bind,
    run_orElse_of_none (run_based_of_numeric h "0x" rfl rfl (by decide) 16),
    run_orElse_of_none (run_based_of_numeric h "0o" rfl rfl (by decide) 8),
    run_orElse_of_none (run_based_of_numeric h "0b" rfl rfl (by decide) 2),
    hdecimal, Option.bind_some, if_pos hfits, run_pure]

/-- The digits of a number are read as that number, and as nothing else. -/
theorem run_value_chars : value.run (Decimal.chars n ++ rest) = some (.integer n, rest) := by
  have h := numeric_chars n hrest
  have hscalar : scalar.run (Decimal.chars n ++ rest) = some (.integer n, rest) := by
    have hstring : (do return Found.string (← string) : Scan Found).run (Decimal.chars n ++ rest)
        = none := by
      rw [run_bind, run_string_of_numeric h, Option.bind_none]
    rw [scalar, run_orElse_of_none hstring, run_orElse_of_none (run_truth_of_numeric h),
      run_orElse_of_none (run_time_of_numeric h), run_orElse_of_none (run_special_of_numeric h),
      run_orElse_of_none (run_fraction_chars hrest n), run_integer_chars hrest hn]
  rw [value, valueWithin, run_bind, run_peek?, Option.bind_some]
  split
  · next heq => exact absurd heq (h.head?_ne rfl (by decide))
  · next heq => exact absurd heq (h.head?_ne rfl (by decide))
  · exact hscalar

end

end Countersign.Toml
