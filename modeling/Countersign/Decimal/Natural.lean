/-!
# `Countersign.Decimal.Natural`: whole numbers as decimal text

A number is written without leading zeros. `value_chars` says that reading the digits gives the
number back, so two numbers with one text are equal.
-/

set_option autoImplicit false

namespace Countersign.Decimal

/-- The last digit of a number. -/
def digit (n : Nat) : Char :=
  Char.ofNat (48 + n % 10)

/-- The digits of a number, without leading zeros. -/
def chars (n : Nat) : List Char :=
  if n < 10 then [digit n] else chars (n / 10) ++ [digit n]

/-- The number that digits write. Of any other character, its distance from the zero counts. -/
def value (cs : List Char) : Nat :=
  cs.foldl (fun n c => 10 * n + (c.toNat - 48)) 0

/-- A number as text. -/
def ofNat (n : Nat) : String :=
  String.ofList (chars n)

/-- A whole number as text, with a sign only below zero. -/
def ofInt (i : Int) : String :=
  if i < 0 then "-" ++ ofNat i.natAbs else ofNat i.natAbs

/-- The digits stand one behind the other, beginning with zero. -/
theorem toNat_digit (n : Nat) : (digit n).toNat = 48 + n % 10 := by
  have h : n % 10 < 10 := Nat.mod_lt _ (by decide)
  unfold digit
  generalize n % 10 = d at h
  match d, h with
  | 0, _ | 1, _ | 2, _ | 3, _ | 4, _ | 5, _ | 6, _ | 7, _ | 8, _ | 9, _ => rfl
  | n + 10, h => omega

/-- Reading the digits of a number gives it back. -/
@[simp] theorem value_chars (n : Nat) : value (chars n) = n := by
  induction n using chars.induct with
  | case1 n h =>
    rw [chars, if_pos h]
    simp only [value, List.foldl_cons, List.foldl_nil, toNat_digit]
    omega
  | case2 n h ih =>
    rw [chars, if_neg h]
    simp only [value, List.foldl_append, List.foldl_cons, List.foldl_nil, toNat_digit] at ih ⊢
    omega

/-- Different numbers have different digits. -/
theorem chars_inj {m n : Nat} (h : chars m = chars n) : m = n := by
  rw [← value_chars m, h, value_chars]

end Countersign.Decimal
