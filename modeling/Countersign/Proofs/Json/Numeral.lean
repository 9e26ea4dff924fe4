import Countersign.Json.Numeral
import Countersign.Proofs.Decimal.Digits

/-!
# `Countersign.Proofs.Json.Numeral`: whole numbers are read exactly

A numeral of digits alone can be read in front of anything that does not go on with it
(`scanUnsigned?_chars`), and as long as the number fits 64 bits it is read as a whole number and not
as a fraction (`number?_ofNat`).
-/

set_option autoImplicit false

namespace Countersign.Json

namespace Numeral

/-- How a whole number is written. -/
def ofNat (n : Nat) : Numeral :=
  ⟨false, Decimal.chars n, [], none⟩

/-- What stands here does not belong to a numeral in front of it. -/
def Ends (rest : List Char) : Prop :=
  ∀ c ∈ rest.head?, c.isDigit = false ∧ c ≠ '.' ∧ c ≠ 'e' ∧ c ≠ 'E'

section
variable {rest : List Char} (hrest : Ends rest)

include hrest

/-- Where a numeral ends, no fraction begins. -/
theorem scanFraction?_of_ends : scanFraction? rest = some ([], rest) := by
  cases rest with
  | nil => rfl
  | cons c rest =>
      obtain ⟨-, hpoint, -⟩ := hrest c rfl
      rw [scanFraction?.eq_def]
      split
      · rename_i heq
        exact absurd (List.cons.inj heq).1 hpoint
      · rfl

/-- Nor does a power of ten. -/
theorem scanExponent?_of_ends : scanExponent? rest = some (none, rest) := by
  cases rest with
  | nil => rfl
  | cons c rest =>
      obtain ⟨-, -, hsmall, hlarge⟩ := hrest c rfl
      rw [scanExponent?.eq_def]
      exact if_neg (not_or.mpr ⟨hsmall, hlarge⟩)

/-- The digits of a number are read as its numeral. -/
theorem scanUnsigned?_chars (n : Nat) :
    scanUnsigned? false (Decimal.chars n ++ rest) = some (ofNat n, rest) := by
  have hdigits : digits (Decimal.chars n ++ rest) = (Decimal.chars n, rest) := by
    have hnot : ∀ c ∈ rest.head?, c.isDigit = false := fun c hc => (hrest c hc).1
    rw [digits, Decimal.takeWhile_chars_append n hnot, Decimal.dropWhile_chars_append n hnot]
  have hallowed : ¬ (Decimal.chars n = [] ∨
      ((Decimal.chars n).head? = some '0' ∧ 1 < (Decimal.chars n).length)) := by
    rintro (hnil | ⟨hzero, hlong⟩)
    · exact Decimal.chars_ne_nil n hnil
    · -- Only zero begins with a zero, and it has one digit.
      rcases Nat.eq_zero_or_pos n with rfl | hpos
      · rw [Decimal.chars, if_pos (by decide)] at hlong
        exact absurd hlong (by decide)
      · exact Decimal.head?_chars_of_pos hpos hzero
  rw [scanUnsigned?, hdigits]
  dsimp only
  rw [if_neg hallowed, scanFraction?_of_ends hrest]
  show (scanExponent? rest >>= _) = _
  rw [scanExponent?_of_ends hrest]
  rfl

end

/-- What several digits write behind a number. -/
def continued (n : Nat) (ds : List Char) : Nat :=
  ds.foldl (fun n c => 10 * n + (c.toNat - 48)) n

/-- More digits do not make a number smaller. -/
theorem le_continued (n : Nat) (ds : List Char) : n ≤ continued n ds := by
  induction ds generalizing n with
  | nil => exact Nat.le_refl n
  | cons d ds ih =>
      have hrest := ih (10 * n + (d.toNat - 48))
      show n ≤ continued (10 * n + (d.toNat - 48)) ds
      omega

/-- Digits are added up in full if what they come to fits 64 bits. -/
theorem accumulate_of_lt {n : Nat} {ds : List Char} (h : continued n ds < UInt64.size) :
    accumulate n ds = (continued n ds, []) := by
  induction ds generalizing n with
  | nil => rfl
  | cons d ds ih =>
      -- If all digits fit then so do the first ones.
      have hrest : continued (10 * n + (d.toNat - 48)) ds < UInt64.size := h
      have hfirst := Nat.lt_of_le_of_lt (le_continued _ ds) hrest
      rw [accumulate, if_pos hfirst, ih hrest]
      rfl

/-- What is written of a whole number that fits 64 bits is that number. -/
theorem number?_ofNat {n : Nat} (h : n < UInt64.size) :
    (ofNat n).number? = some (.integer n) := by
  have hvalue : continued 0 (Decimal.chars n) = n := Decimal.value_chars n
  have hdigits := accumulate_of_lt (n := 0) (hvalue.symm ▸ h)
  rw [number?, ofNat, hdigits, hvalue]
  rfl

end Numeral

end Countersign.Json
