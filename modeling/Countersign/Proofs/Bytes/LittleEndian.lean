import Mathlib.Algebra.Group.Nat.Defs
import Countersign.Bytes.Basic

/-!
# `Countersign.Proofs.Bytes.LittleEndian`: numbers written low byte first

`Bytes.toNatLE` reads a number and `Bytes.ofNatLE` writes one at a fixed width.
`toNatLE_ofNatLE` is the round trip, which keeps as much of the number as fits, `toNatLE_append`
reads a byte string in two parts, and `toNatLE_inj` says that bytes of one width that read as the
same number are the same.
-/

set_option autoImplicit false

namespace Countersign.Bytes

/-- The second part counts as many places higher as the first part is long. -/
theorem toNatLE_append (xs ys : Bytes) :
    toNatLE (xs ++ ys) = toNatLE xs + 256 ^ xs.length * toNatLE ys := by
  induction xs with
  | nil => simp [toNatLE]
  | cons x xs ih =>
      rw [List.cons_append, toNatLE, toNatLE, ih, List.length_cons, Nat.pow_succ]
      rw [Nat.mul_add, Nat.add_assoc, ← Nat.mul_assoc, Nat.mul_comm 256 (256 ^ xs.length)]

/-- A single byte is read as its own number. -/
theorem toNatLE_singleton (b : UInt8) : toNatLE [b] = b.toNat := by
  simp [toNatLE]

/-- A number is below the power that its bytes have room for. -/
theorem toNatLE_lt (bs : Bytes) : toNatLE bs < 256 ^ bs.length := by
  induction bs with
  | nil => exact Nat.one_pos
  | cons b bs ih =>
      have hbyte := b.toNat_lt
      rw [toNatLE, List.length_cons, Nat.pow_succ]
      omega

/-- Writing at a width keeps the number modulo what the width holds. -/
theorem toNatLE_ofNatLE (width n : Nat) : toNatLE (ofNatLE width n) = n % 256 ^ width := by
  induction width generalizing n with
  | zero => simp [ofNatLE, toNatLE, Nat.mod_one]
  | succ width ih =>
      have hbyte : (UInt8.ofNat n).toNat = n % 256 := UInt8.toNat_ofNat'
      rw [ofNatLE, toNatLE, ih, hbyte, Nat.pow_succ, Nat.mul_comm (256 ^ width) 256,
        Nat.mod_mul]

/-- A number that fits into the width is read back as it was. -/
theorem toNatLE_ofNatLE_of_lt {width n : Nat} (h : n < 256 ^ width) :
    toNatLE (ofNatLE width n) = n := by
  rw [toNatLE_ofNatLE, Nat.mod_eq_of_lt h]

/-- Writing what bytes read as, at their own width, gives them back. -/
theorem ofNatLE_toNatLE (bs : Bytes) : ofNatLE bs.length (toNatLE bs) = bs := by
  induction bs with
  | nil => rfl
  | cons b bs ih =>
      have hb := b.toNat_lt
      have hlow : UInt8.ofNat (b.toNat + 256 * toNatLE bs) = b := by
        apply UInt8.toNat_inj.mp
        rw [UInt8.toNat_ofNat']
        omega
      have hhigh : (b.toNat + 256 * toNatLE bs) / 256 = toNatLE bs := by omega
      rw [List.length_cons, toNatLE, ofNatLE, hlow, hhigh, ih]

/-- Of one width, each number has its own bytes. -/
theorem toNatLE_inj {xs ys : Bytes} (hlength : xs.length = ys.length)
    (h : toNatLE xs = toNatLE ys) : xs = ys := by
  rw [← ofNatLE_toNatLE xs, ← ofNatLE_toNatLE ys, hlength, h]

end Countersign.Bytes
