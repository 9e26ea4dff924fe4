import Countersign.Proofs.Script.FixedWidth

/-!
# `Countersign.Proofs.Script.Canonical`: the one shortest item for a number

Many items stand for one number: zeros can be put below the sign bit, zero may have a sign, and all
items of more than eight bytes are read as -1. `Number.encode` writes the shortest of them.
`encode_canonical` says this for every number of 64 bits, with the one exception that there is: the
least number needs a ninth byte, and with it is read as -1.

What carries the argument is that an item of `k` bytes has room for magnitudes below `2 ^ (8k - 1)`
(`natAbs_decode_lt`), and that `encode` takes no more bytes than that (`length_encode_le_of_lt`).
Among items of one length each number but zero has only one (`decode_inj_of_length`).
-/

set_option autoImplicit false

namespace Countersign.Number

/-! ### The room in an item -/

/-- The last bit of an item is the sign, so the magnitude has the bits below it. -/
theorem natAbs_decode_lt {front : Bytes} (last : UInt8) (h : front.length < 8) :
    (decode (front ++ [last])).natAbs < 0x80 * 256 ^ front.length := by
  rw [decode_append front last h]
  by_cases htop : 0x80 ≤ last
  · rw [if_pos htop, Int.natAbs_neg, Int.natAbs_natCast]
    exact toNatLE_concat_lt front (toNat_clear_lt last)
  · rw [if_neg htop, Int.natAbs_natCast]
    exact toNatLE_concat_lt front (toNat_lt_of_not_le htop)

/-- An item never stands for the least number of 64 bits, or one beyond. -/
theorem natAbs_decode_lt_word (item : Bytes) : (decode item).natAbs < 2 ^ 63 := by
  induction item using List.reverseRecOn with
  | nil => decide
  | append_singleton front last _ =>
      by_cases hlong : 8 < (front ++ [last]).length
      · rw [decode_of_length hlong]
        decide
      · rw [List.length_append, List.length_singleton] at hlong
        have hroom : 256 ^ front.length ≤ 256 ^ 7 := Nat.pow_le_pow_right (by decide) (by omega)
        have hlt := natAbs_decode_lt last (show front.length < 8 by omega)
        omega

/-- A number is written in as many bytes as have room for it. -/
theorem length_encode_le_of_lt {n : Int} {width : Nat} (h : n.natAbs < 0x80 * 256 ^ width) :
    (encode n).length ≤ width + 1 := by
  cases Nat.eq_zero_or_pos n.natAbs with
  | inl hzero =>
      rw [Int.natAbs_eq_zero.mp hzero, encode_zero]
      exact Nat.zero_le _
  | inr hpos =>
      obtain ⟨front, last, heq, -⟩ := magnitude_eq_append hpos
      have hvalue : Bytes.toNatLE front + 256 ^ front.length * last.toNat = n.natAbs := by
        rw [← Bytes.toNatLE_singleton, ← Bytes.toNatLE_append, ← heq, toNatLE_magnitude]
      have hlength : front.length < width + 1 := by
        have hle := length_magnitude_le (show n.natAbs < 256 ^ (width + 1) by
          rw [Nat.pow_succ]
          omega)
        rw [heq, List.length_append, List.length_singleton] at hle
        exact hle
      rw [encode, heq, withSign_append, withSign, List.length_append]
      by_cases htop : 0x80 ≤ last
      · -- A top bit that is set counts more than the width has room for, unless it is narrower.
        have hnarrow : front.length < width := by
          refine Nat.lt_of_le_of_ne (Nat.le_of_lt_succ hlength) ?_
          rintro rfl
          have hle : 0x80 ≤ last.toNat := UInt8.le_iff_toNat_le.mp htop
          have hmul := Nat.mul_le_mul_left (256 ^ front.length) hle
          omega
        rw [if_pos htop]
        exact Nat.succ_le_succ hnarrow
      · rw [if_neg htop]
        exact hlength

/-! ### Items of one length -/

/-- Two bytes with the same sign bit that agree without it are the same. -/
theorem eq_of_clear_eq {b c : UInt8} (hb : 0x80 ≤ b) (hc : 0x80 ≤ c)
    (h : b &&& 0x7F = c &&& 0x7F) : b = c := by
  apply UInt8.toNat_inj.mp
  rw [toNat_eq_clear hb, toNat_eq_clear hc, h]

/-- Items of one length that stand for the same number, and not for zero, are the same. -/
theorem decode_inj_of_length {front front' : Bytes} {last last' : UInt8}
    (hlength : front.length = front'.length) (hshort : front.length < 8)
    (hvalue : decode (front ++ [last]) = decode (front' ++ [last']))
    (hne : decode (front ++ [last]) ≠ 0) : front ++ [last] = front' ++ [last'] := by
  have hlengths (b c : UInt8) : (front ++ [b]).length = (front' ++ [c]).length := by
    rw [List.length_append, List.length_append, hlength]
    rfl
  rw [decode_append front last hshort] at hvalue hne
  rw [decode_append front' last' (hlength ▸ hshort)] at hvalue
  -- Two items with different signs stand for the same number only if it is zero.
  by_cases htop : 0x80 ≤ last <;> by_cases htop' : 0x80 ≤ last'
  · rw [if_pos htop, if_pos htop'] at hvalue
    have hbytes := Bytes.toNatLE_inj (hlengths (last &&& 0x7F) (last' &&& 0x7F)) (by omega)
    obtain ⟨rfl, hclear⟩ := List.append_inj' hbytes rfl
    rw [eq_of_clear_eq htop htop' (List.singleton_inj.mp hclear)]
  · rw [if_pos htop] at hvalue hne
    rw [if_neg htop'] at hvalue
    omega
  · rw [if_neg htop] at hvalue hne
    rw [if_pos htop'] at hvalue
    omega
  · rw [if_neg htop, if_neg htop'] at hvalue
    exact Bytes.toNatLE_inj (hlengths last last') (Int.ofNat_inj.mp hvalue)

/-- Every item is the one that is written for its number, or longer than that. -/
theorem eq_encode_or_length_lt (item : Bytes) :
    item = encode (decode item) ∨ (encode (decode item)).length < item.length := by
  induction item using List.reverseRecOn with
  | nil => exact .inl encode_zero.symm
  | append_singleton front last _ =>
      have hlength : (front ++ [last]).length = front.length + 1 := List.length_append
      by_cases hlong : 8 < (front ++ [last]).length
      · refine .inr ?_
        rw [decode_of_length hlong]
        have hone : (encode (-1)).length ≤ 0 + 1 := length_encode_le_of_lt (by decide)
        omega
      have hshort : front.length < 8 := by omega
      have hle := length_encode_le_of_lt (natAbs_decode_lt last hshort)
      rcases Nat.lt_or_eq_of_le hle with hlt | heq
      · exact .inr (by omega)
      refine .inl ?_
      -- Of the same length, and not empty, so that the number is not zero.
      obtain ⟨front', last', hitem⟩ : ∃ front' last', encode (decode (front ++ [last]))
          = front' ++ [last'] := by
        rcases List.eq_nil_or_concat' (encode (decode (front ++ [last]))) with hnil | h
        · rw [hnil] at heq
          cases heq
        · exact h
      have hread := decode_encode (natAbs_decode_lt_word (front ++ [last]))
      have hne : decode (front ++ [last]) ≠ 0 := by
        intro hzero
        rw [hzero, encode_zero] at heq
        cases heq
      rw [hitem] at hread heq ⊢
      rw [List.length_append, List.length_singleton] at heq
      exact decode_inj_of_length (by omega) hshort hread.symm hne

/-- The item for the least number of 64 bits has a ninth byte, for the sign alone. -/
theorem encode_least :
    encode Int64.minValue.toInt = [0, 0, 0, 0, 0, 0, 0, 0x80, 0x80] := by
  decide +kernel

/-- Numbers of 64 bits and the items that stand for them.

* Every number but the least comes back from its item, and every other item that stands for it is
  longer.
* The least number has an item of nine bytes, which is read as -1.
* Every item is read without a step that does not fit into 64 bits.
* What an item stands for comes back from the item that is written for it, which is no longer.
* An item of more than eight bytes stands for -1. -/
theorem encode_canonical :
    (∀ n : Int64, n ≠ Int64.minValue →
      decode (encode n.toInt) = n.toInt ∧
      ∀ item, decode item = n.toInt → item ≠ encode n.toInt →
        (encode n.toInt).length < item.length) ∧
    ((encode Int64.minValue.toInt).length = 9 ∧ decode (encode Int64.minValue.toInt) = -1) ∧
    ∀ item : Bytes,
      (∃ i, decodeWord? item = some i ∧ i.toInt = decode item) ∧
      decode (encode (decode item)) = decode item ∧
      (encode (decode item)).length ≤ item.length ∧
      (8 < item.length → decode item = -1) := by
  refine ⟨fun n hn => ?_, ⟨by rw [encode_least]; rfl, by rw [encode_least]; rfl⟩, fun item => ?_⟩
  · have hread : decode (encode n.toInt) = n.toInt := by
      have hle := n.le_toInt
      have hlt := n.toInt_lt
      have hne : n.toInt ≠ Int64.minValue.toInt := fun h => hn (Int64.toInt_inj.mp h)
      have hleast : Int64.minValue.toInt = -2 ^ 63 := by decide
      exact decode_encode (by omega)
    refine ⟨hread, fun item hitem hother => ?_⟩
    rw [← hitem] at hother ⊢
    exact (eq_encode_or_length_lt item).resolve_left hother
  · refine ⟨decodeWord?_eq item, decode_encode (natAbs_decode_lt_word item), ?_, decode_of_length⟩
    rcases eq_encode_or_length_lt item with heq | hlt
    · exact Nat.le_of_eq (congrArg List.length heq).symm
    · exact Nat.le_of_lt hlt

/-- The number -300 has an item of two bytes. The item of three bytes that stands for it too has a
byte for the sign alone, and an item of nine bytes is no number but -1. -/
theorem encode_canonical_padded :
    let n : Int64 := -300
    let padded : Bytes := [0x2C, 0x01, 0x80]
    let long := List.replicate 9 0x01
    n ≠ Int64.minValue ∧ decode (encode n.toInt) = -300 ∧
      decode padded = n.toInt ∧ padded ≠ encode n.toInt ∧
      (encode n.toInt).length < padded.length ∧ 8 < long.length ∧ decode long = -1 := by
  intro n padded long
  have hn : n ≠ Int64.minValue := by decide
  have hpadded : decode padded = n.toInt := by decide
  have hother : padded ≠ encode n.toInt := by decide +kernel
  have hlong : 8 < long.length := by decide
  obtain ⟨hnumbers, -, hitems⟩ := encode_canonical
  obtain ⟨hread, hshortest⟩ := hnumbers n hn
  exact ⟨hn, hread, hpadded, hother, hshortest padded hpadded hother, hlong,
    (hitems long).2.2.2 hlong⟩

end Countersign.Number
