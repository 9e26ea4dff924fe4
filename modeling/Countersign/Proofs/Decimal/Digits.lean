import Mathlib.Data.List.TakeWhile
import Countersign.Decimal.Natural

/-!
# `Countersign.Proofs.Decimal.Digits`: where a written number ends

A number is written without a length, so a reader finds its end at the first character that is no
digit. `takeWhile_chars_append` and `dropWhile_chars_append` say that it finds the right one, and
`chars_append_inj` that two texts that begin with numbers are the same only if the numbers and the
rests are.

JSON forbids a zero in front of other digits. `head?_chars_of_pos` is why a number never has one.
-/

set_option autoImplicit false

namespace Countersign.Decimal

/-- The text of a number is the list of its digits. -/
theorem toList_ofNat (n : Nat) : (ofNat n).toList = chars n := by
  rw [ofNat, String.toList_ofList]

/-- What is written for a number below ten is a digit. -/
theorem isDigit_digit (n : Nat) : (digit n).isDigit = true := by
  have hnat := toNat_digit n
  have hmod : n % 10 < 10 := Nat.mod_lt n (by decide)
  simp only [Char.isDigit, Bool.and_eq_true, decide_eq_true_eq, ge_iff_le,
    UInt32.le_iff_toNat_le]
  show 48 ≤ (digit n).toNat ∧ (digit n).toNat ≤ 57
  omega

/-- A number is written in digits only. -/
theorem isDigit_of_mem_chars {n : Nat} {c : Char} (h : c ∈ chars n) : c.isDigit = true := by
  induction n using chars.induct with
  | case1 n hlt =>
      rw [chars, if_pos hlt, List.mem_singleton] at h
      rw [h]
      exact isDigit_digit n
  | case2 n hlt ih =>
      rw [chars, if_neg hlt, List.mem_append, List.mem_singleton] at h
      rcases h with hleading | rfl
      · exact ih hleading
      · exact isDigit_digit n

/-- Every number has a digit. -/
theorem chars_ne_nil (n : Nat) : chars n ≠ [] := by
  rw [chars]
  split <;> simp

/-- A number begins with zero only if it is zero. -/
theorem head?_chars_of_pos {n : Nat} (h : 0 < n) : (chars n).head? ≠ some '0' := by
  induction n using chars.induct with
  | case1 n hlt =>
      rw [chars, if_pos hlt, List.head?_cons]
      intro hzero
      have hnat := toNat_digit n
      rw [Option.some.inj hzero, Nat.mod_eq_of_lt hlt] at hnat
      have hchar : ('0').toNat = 48 := rfl
      omega
  | case2 n hlt ih =>
      -- The number without its last digit is positive too, and begins with the same digit.
      obtain ⟨d, ds, hleading⟩ := List.exists_cons_of_ne_nil (chars_ne_nil (n / 10))
      have hfirst := ih (by omega)
      rw [hleading] at hfirst
      rw [chars, if_neg hlt, hleading]
      exact hfirst

/-! ### The end of a number -/

section
variable (n : Nat) {rest : List Char} (hrest : ∀ c ∈ rest.head?, c.isDigit = false)

include hrest

/-- In front of something that is no digit, the digits are those of the number. -/
theorem takeWhile_chars_append : (chars n ++ rest).takeWhile Char.isDigit = chars n := by
  rw [List.takeWhile_append_of_pos fun c hc => isDigit_of_mem_chars hc]
  cases rest with
  | nil => simp
  | cons c rest =>
      have hc : c.isDigit = false := hrest c rfl
      simp [hc]

/-- Behind the digits comes what was written there. -/
theorem dropWhile_chars_append : (chars n ++ rest).dropWhile Char.isDigit = rest := by
  rw [List.dropWhile_append_of_pos fun c hc => isDigit_of_mem_chars hc]
  cases rest with
  | nil => rfl
  | cons c rest =>
      have hc : c.isDigit = false := hrest c rfl
      simp [hc]

end

/-- Texts that begin with a number are equal only if both the numbers and the rests are. -/
theorem chars_append_inj {m n : Nat} {s t : List Char} (hs : ∀ c ∈ s.head?, c.isDigit = false)
    (ht : ∀ c ∈ t.head?, c.isDigit = false) (h : chars m ++ s = chars n ++ t) : m = n ∧ s = t := by
  have hdigits := congrArg (List.takeWhile Char.isDigit) h
  have hrests := congrArg (List.dropWhile Char.isDigit) h
  rw [takeWhile_chars_append m hs, takeWhile_chars_append n ht] at hdigits
  rw [dropWhile_chars_append m hs, dropWhile_chars_append n ht] at hrests
  exact ⟨chars_inj hdigits, hrests⟩

/-- No number begins with a character that is no digit. -/
theorem chars_append_ne_cons {c : Char} (hc : c.isDigit = false) (n : Nat) (s t : List Char) :
    chars n ++ s ≠ c :: t := by
  obtain ⟨d, ds, hchars⟩ := List.exists_cons_of_ne_nil (chars_ne_nil n)
  intro h
  rw [hchars, List.cons_append, List.cons.injEq] at h
  have hd : d.isDigit = true := isDigit_of_mem_chars (hchars ▸ List.mem_cons_self)
  rw [h.1, hc] at hd
  cases hd

end Countersign.Decimal
