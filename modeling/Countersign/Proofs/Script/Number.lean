import Mathlib.Data.List.DropRight
import Countersign.Proofs.Bytes.LittleEndian
import Countersign.Script.Number
import Countersign.Script.Template

/-!
# `Countersign.Proofs.Script.Number`: numbers come back from the stack

`decode_encode` is the round trip of `Number.encode` and `Number.decode` for every number whose
magnitude is below `2 ^ 63`; an item of nine bytes would be read as -1. `positiveItem_eq_encode`
ties the item that `Template.pushNumber` writes, which strips the zeros off eight bytes, to
`Number.encode`, which builds up as many bytes as are needed.
-/

set_option autoImplicit false

namespace Countersign.Number

/-! ### The magnitude -/

/-- The byte of a number that fits it and is positive is not zero. -/
private theorem ofNat_ne_zero {n : Nat} (hpos : 0 < n) (hlt : n < 256) : UInt8.ofNat n ≠ 0 := by
  intro h
  have hbyte : (UInt8.ofNat n).toNat = n := UInt8.toNat_ofNat_of_lt' hlt
  rw [h] at hbyte
  exact absurd hbyte.symm (Nat.ne_of_gt hpos)

/-- Zero has no bytes. -/
@[simp] theorem magnitude_zero : magnitude 0 = [] := by
  rw [magnitude, if_pos rfl]

/-- The low byte of a number comes first. -/
theorem magnitude_of_pos {n : Nat} (h : 0 < n) :
    magnitude n = UInt8.ofNat n :: magnitude (n / 256) := by
  rw [magnitude, if_neg (by omega)]

/-- Only zero has no bytes. -/
theorem magnitude_eq_nil_iff {n : Nat} : magnitude n = [] ↔ n = 0 := by
  constructor
  · intro h
    by_contra hn
    rw [magnitude_of_pos (by omega)] at h
    cases h
  · rintro rfl
    exact magnitude_zero

/-- A number can be read off the bytes of its magnitude. -/
theorem toNatLE_magnitude (n : Nat) : Bytes.toNatLE (magnitude n) = n := by
  induction n using Nat.strongRecOn with
  | ind n ih =>
      cases Nat.eq_zero_or_pos n with
      | inl hzero =>
          rw [hzero, magnitude_zero]
          rfl
      | inr hpos =>
          have hbyte : (UInt8.ofNat n).toNat = n % 256 := UInt8.toNat_ofNat'
          rw [magnitude_of_pos hpos, Bytes.toNatLE, ih (n / 256) (by omega), hbyte]
          omega

/-- The bytes of a magnitude end in one that is not zero. -/
theorem magnitude_eq_append {n : Nat} (h : 0 < n) :
    ∃ front last, magnitude n = front ++ [last] ∧ last ≠ 0 := by
  induction n using Nat.strongRecOn with
  | ind n ih =>
      rw [magnitude_of_pos h]
      cases Nat.eq_zero_or_pos (n / 256) with
      | inl hzero =>
          refine ⟨[], UInt8.ofNat n, ?_, ofNat_ne_zero h (by omega)⟩
          rw [hzero, magnitude_zero]
          rfl
      | inr hpos =>
          obtain ⟨front, last, heq, hne⟩ := ih (n / 256) (by omega) hpos
          exact ⟨UInt8.ofNat n :: front, last, by rw [heq]; rfl, hne⟩

/-- A number that fits a width has no more bytes than that. -/
theorem length_magnitude_le {width n : Nat} (h : n < 256 ^ width) :
    (magnitude n).length ≤ width := by
  induction width generalizing n with
  | zero =>
      have hzero : n = 0 := by simpa using h
      simp [hzero]
  | succ width ih =>
      cases Nat.eq_zero_or_pos n with
      | inl hzero => simp [hzero]
      | inr hpos =>
          have hdiv : n / 256 < 256 ^ width := by
            rw [Nat.pow_succ] at h
            exact Nat.div_lt_of_lt_mul (by omega)
          rw [magnitude_of_pos hpos, List.length_cons]
          exact Nat.succ_le_succ (ih hdiv)

/-- Taking the needless zeros off a fixed width leaves the bytes of the magnitude. -/
theorem rdropWhile_ofNatLE {width n : Nat} (h : n < 256 ^ width) :
    (Bytes.ofNatLE width n).rdropWhile (· == 0) = magnitude n := by
  induction width generalizing n with
  | zero =>
      have hzero : n = 0 := by simpa using h
      rw [hzero, magnitude_zero]
      rfl
  | succ width ih =>
      have hdiv : n / 256 < 256 ^ width := by
        rw [Nat.pow_succ] at h
        exact Nat.div_lt_of_lt_mul (by omega)
      have hrest := congrArg List.reverse (ih hdiv)
      rw [List.rdropWhile, List.reverse_reverse] at hrest
      rw [Bytes.ofNatLE, List.rdropWhile, List.reverse_cons, List.dropWhile_append, hrest,
        List.isEmpty_reverse]
      cases Nat.eq_zero_or_pos (n / 256) with
      | inl hzero =>
          -- Only the low byte is left, and it goes too if the number is zero.
          have hlt : n < 256 := by omega
          rw [hzero, magnitude_zero, List.isEmpty_nil, if_pos rfl]
          cases Nat.eq_zero_or_pos n with
          | inl hn =>
              rw [hn, magnitude_zero]
              rfl
          | inr hpos =>
              have hne : (UInt8.ofNat n == 0) = false :=
                beq_eq_false_iff_ne.mpr (ofNat_ne_zero hpos hlt)
              rw [magnitude_of_pos hpos, hzero, magnitude_zero, List.dropWhile_cons, hne]
              rfl
      | inr hpos =>
          have hne : (magnitude (n / 256)).isEmpty = false := by
            rw [List.isEmpty_eq_false_iff]
            exact fun hnil => by rw [magnitude_eq_nil_iff] at hnil; omega
          rw [hne, magnitude_of_pos (by omega : 0 < n)]
          simp

/-! ### The sign -/

/-- The sign touches the last byte only. -/
theorem withSign_append (negative : Bool) (front : Bytes) (last : UInt8) :
    withSign negative (front ++ [last]) = front ++ withSign negative [last] := by
  induction front with
  | nil => rfl
  | cons b front ih =>
      rw [List.cons_append, List.cons_append, ← ih]
      cases front <;> rfl

/-- Taking the sign off touches the last byte only. -/
theorem withoutSign_append (front : Bytes) (last : UInt8) :
    withoutSign (front ++ [last]) = front ++ [last &&& 0x7F] := by
  induction front with
  | nil => rfl
  | cons b front ih =>
      rw [List.cons_append, List.cons_append, ← ih]
      cases front <;> rfl

/-- A sign needs at most one byte more. -/
theorem length_withSign_le (negative : Bool) (bs : Bytes) :
    (withSign negative bs).length ≤ bs.length + 1 := by
  -- The last byte is where the sign goes, so the cases are on the end of the bytes.
  induction bs using List.reverseRecOn with
  | nil => simp [withSign]
  | append_singleton front last _ =>
      rw [withSign_append, withSign]
      split <;> simp

/-- Zero is the empty item. -/
@[simp] theorem encode_zero : encode 0 = [] := by
  rw [encode, Int.natAbs_zero, magnitude_zero]
  rfl

/-- What `decode` makes of an item by its last byte. -/
theorem decode_append (front : Bytes) (last : UInt8) (h : front.length < 8) :
    decode (front ++ [last])
      = if 0x80 ≤ last then -(Bytes.toNatLE (front ++ [last &&& 0x7F]) : Int)
        else Bytes.toNatLE (front ++ [last]) := by
  have hlength : ¬ 8 < (front ++ [last]).length := by
    rw [List.length_append, List.length_singleton]
    omega
  rw [decode, List.getLast?_concat]
  simp only [hlength, if_false, withoutSign_append]

/-- The sign bit of a byte can be put in and taken out again. -/
private theorem signBit (b : UInt8) (h : ¬ 0x80 ≤ b) :
    0x80 ≤ b ||| 0x80 ∧ (b ||| 0x80) &&& 0x7F = b := by
  have key : ∀ n : Nat, n < 128 →
      0x80 ≤ UInt8.ofNat n ||| 0x80 ∧ (UInt8.ofNat n ||| 0x80) &&& 0x7F = UInt8.ofNat n := by
    decide +kernel
  have hlt : b.toNat < 128 := by
    rw [UInt8.le_iff_toNat_le] at h
    exact Nat.lt_of_not_le h
  rw [← UInt8.ofNat_toNat (x := b)]
  exact key b.toNat hlt

/-- A number comes back from its item, as long as the item has no more than eight bytes. -/
theorem decode_encode {n : Int} (h : n.natAbs < 2 ^ 63) : decode (encode n) = n := by
  cases Nat.eq_zero_or_pos n.natAbs with
  | inl hzero =>
      rw [Int.natAbs_eq_zero.mp hzero, encode_zero]
      rfl
  | inr hpos =>
      obtain ⟨front, last, heq, -⟩ := magnitude_eq_append hpos
      have hvalue : Bytes.toNatLE (front ++ [last]) = n.natAbs := by
        rw [← heq, toNatLE_magnitude]
      have hlength : (front ++ [last]).length ≤ 8 := by
        rw [← heq]
        exact length_magnitude_le (by omega)
      rw [List.length_append, List.length_singleton] at hlength
      rw [encode, heq, withSign_append, withSign]
      -- The two cases are those of the encoder: whether the last byte has room for the sign.
      by_cases hlast : 0x80 ≤ last
      · -- The magnitude needs the top bit of its last byte, so the sign has a byte of its own.
        have hshort : (front ++ [last]).length < 8 := by
          rw [List.length_append, List.length_singleton]
          by_contra hlong
          have hseven : front.length = 7 := by omega
          rw [Bytes.toNatLE_append, hseven, Bytes.toNatLE_singleton] at hvalue
          rw [UInt8.le_iff_toNat_le] at hlast
          have hl : (0x80 : UInt8).toNat = 128 := rfl
          omega
        have hzero : Bytes.toNatLE ((front ++ [last]) ++ [0]) = n.natAbs := by
          rw [Bytes.toNatLE_append, hvalue, Bytes.toNatLE_singleton]
          rfl
        rw [if_pos hlast, ← List.singleton_append, ← List.append_assoc]
        by_cases hneg : n < 0
        · rw [decide_eq_true hneg, if_pos rfl, decode_append _ _ hshort, if_pos (by decide)]
          rw [show (0x80 &&& 0x7F : UInt8) = 0 from rfl, hzero]
          omega
        · rw [decide_eq_false hneg, if_neg (by decide), decode_append _ _ hshort,
            if_neg (by decide), hzero]
          omega
      · rw [if_neg hlast]
        by_cases hneg : n < 0
        · obtain ⟨hset, hclear⟩ := signBit last hlast
          rw [decide_eq_true hneg, if_pos rfl, decode_append _ _ (by omega), if_pos hset, hclear,
            hvalue]
          omega
        · rw [decide_eq_false hneg, if_neg (by decide), decode_append _ _ (by omega),
            if_neg hlast, hvalue]
          omega

/-! ### The items of counts -/

/-- An item that is too long for a count is read as a number that fails every test of one. -/
theorem decode_of_length {item : Bytes} (h : 8 < item.length) : decode item = -1 := by
  cases hlast : item.getLast? with
  | none =>
      rw [List.getLast?_eq_none_iff.mp hlast] at h
      cases h
  | some last =>
      rw [decode, hlast]
      exact if_pos h

/-- A number of 64 bits has an item of at most nine bytes. -/
theorem length_encode_le {n : Nat} (h : n < 256 ^ 8) : (encode n).length ≤ 9 := by
  have hmagnitude : (magnitude n).length ≤ 8 := length_magnitude_le h
  have hsign := length_withSign_le (decide ((n : Int) < 0)) (magnitude n)
  rw [encode, Int.natAbs_natCast]
  omega

/-- The numbers that need all 64 bits need one more byte for the sign. -/
theorem length_encode_of_le {n : Nat} (hle : 2 ^ 63 ≤ n) (hlt : n < 2 ^ 64) :
    (encode n).length = 9 := by
  obtain ⟨front, last, heq, -⟩ := magnitude_eq_append (by omega : 0 < n)
  have hvalue : Bytes.toNatLE front + 256 ^ front.length * last.toNat = n := by
    rw [← Bytes.toNatLE_singleton, ← Bytes.toNatLE_append, ← heq, toNatLE_magnitude]
  have hlow := Bytes.toNatLE_lt front
  have hlast := last.toNat_lt
  have hshort : front.length < 8 := by
    have hlength := length_magnitude_le (show n < 256 ^ 8 from hlt)
    rw [heq, List.length_append, List.length_singleton] at hlength
    exact hlength
  -- With fewer than seven bytes below the last one the number would stay below this bound.
  have hseven : front.length = 7 := by
    by_contra hne
    have hpow : 256 ^ (front ++ [last]).length ≤ 256 ^ 7 := by
      rw [List.length_append, List.length_singleton]
      exact Nat.pow_le_pow_right (by decide) (by omega)
    have hwhole := Bytes.toNatLE_lt (front ++ [last])
    rw [← heq, toNatLE_magnitude, heq] at hwhole
    omega
  rw [hseven] at hvalue hlow
  have htop : 0x80 ≤ last := UInt8.le_iff_toNat_le.mpr (show 128 ≤ last.toNat from by omega)
  rw [encode, Int.natAbs_natCast, heq, withSign_append, withSign, if_pos htop,
    List.length_append, hseven]
  rfl

/-- A count that fits into seven bits is a single byte. -/
theorem encode_of_lt {n : Nat} (hpos : 0 < n) (h : n < 128) : encode n = [UInt8.ofNat n] := by
  have hneg : ¬ (n : Int) < 0 := by omega
  have htop : ¬ 0x80 ≤ UInt8.ofNat n := by
    have hbyte : (UInt8.ofNat n).toNat = n % 256 := UInt8.toNat_ofNat'
    have hl : (0x80 : UInt8).toNat = 128 := rfl
    rw [UInt8.le_iff_toNat_le]
    omega
  have hdiv : n / 256 = 0 := by omega
  rw [encode, Int.natAbs_natCast, magnitude_of_pos hpos, hdiv, magnitude_zero, withSign,
    if_neg htop, decide_eq_false hneg]
  rfl

/-- A positive number has an item that is not empty. -/
theorem encode_ne_nil {n : Nat} (hpos : 0 < n) : encode n ≠ [] := by
  obtain ⟨front, last, heq, -⟩ := magnitude_eq_append hpos
  rw [encode, Int.natAbs_natCast, heq, withSign_append, withSign]
  split <;> simp

/-- Without a sign, only a top bit that is set asks for one more byte. -/
private theorem withSign_false (bs : Bytes) :
    withSign false bs = match bs.getLast? with
      | some last => if 0x80 ≤ last then bs ++ [0] else bs
      | none => bs := by
  induction bs using List.reverseRecOn with
  | nil => rfl
  | append_singleton front last _ =>
      rw [withSign_append, withSign, List.getLast?_concat]
      by_cases hlast : 0x80 ≤ last <;> simp [hlast]

/-- Stripping a fixed width and building up the bytes come to the same item. -/
theorem positiveItem_eq_encode (n : UInt64) : Template.positiveItem n = encode n.toNat := by
  have hstrip : ((Bytes.ofNatLE 8 n.toNat).reverse.dropWhile (· == 0)).reverse
      = magnitude n.toNat := rdropWhile_ofNatLE (by have := n.toNat_lt; omega)
  have hneg : ¬ (n.toNat : Int) < 0 := by omega
  rw [encode, Int.natAbs_natCast, decide_eq_false hneg, withSign_false, ← hstrip]
  rfl

end Countersign.Number
