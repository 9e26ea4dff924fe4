import Mathlib.Data.List.Dedup
import Countersign.Proofs.Bytes.Hex

/-!
# `Countersign.Proofs.Bytes.HashOrder`: hashes stand in the order of their texts

Hashes are ordered by their bytes, and outside they are seen as texts. `ScriptHash.toHex_order` says
that it makes no difference which of the two is looked at: one hash stands before another exactly if
its text stands before the other text, byte by byte. So a list of hashes can be sorted, and cleared
of those that are there more than once, as hashes or as texts, with the same result.

The reason is that the digits themselves are in ascending order, small letters being behind the
figures. A byte is two digits, so the comparison of two texts meets the high half of the first byte
that differs, or its low half, and decides as the bytes do (`Hex.chars_lt_iff`).
-/

set_option autoImplicit false

namespace Countersign

/-! ### Lists in ascending order -/

/-- The second list holds what the first one holds, in ascending order and each once. -/
structure Ascends {α : Type} (before : α → α → Prop) (xs ys : List α) : Prop where
  pairwise : ys.Pairwise before
  mem_iff : ∀ x, x ∈ ys ↔ x ∈ xs

/-- There is only one way to put a list in ascending order. -/
theorem Ascends.unique {α : Type} {before : α → α → Prop} (hasymm : ∀ a b, before a b → ¬ before b a)
    {xs ys zs : List α} (hys : Ascends before xs ys) (hzs : Ascends before xs zs) : ys = zs := by
  have hne {a b : α} (h : before a b) : a ≠ b := by
    rintro rfl
    exact hasymm a a h h
  have hnodup {l : List α} (h : l.Pairwise before) : l.Nodup := h.imp hne
  -- Neither list repeats anything, so the same members make them permutations of each other.
  have hperm : ys.Perm zs := by
    rw [List.perm_ext_iff_of_nodup (hnodup hys.pairwise) (hnodup hzs.pairwise)]
    exact fun x => (hys.mem_iff x).trans (hzs.mem_iff x).symm
  exact hperm.eq_of_pairwise (fun a b _ _ hab hba => absurd hba (hasymm a b hab)) hys.pairwise
    hzs.pairwise

/-- Of two byte strings that differ one stands before the other. -/
theorem Bytes.lt_or_gt_of_ne {bs cs : Bytes} (h : bs ≠ cs) : bs < cs ∨ cs < bs := by
  by_cases hlt : bs < cs
  · exact .inl hlt
  · refine .inr ?_
    by_contra hgt
    exact h (List.le_antisymm (List.not_lt.mp hgt) (List.not_lt.mp hlt))

/-! ### Texts -/

namespace Text

/-- Texts are compared by their bytes, the first of them counting most. -/
def Before (s t : String) : Prop :=
  s.toUTF8.toList < t.toUTF8.toList

instance (s t : String) : Decidable (Before s t) :=
  inferInstanceAs (Decidable (_ < _))

/-- The texts of a list in ascending order, each once. -/
def sorted (ts : List String) : List String :=
  (ts.mergeSort fun s t => decide (¬ Before t s)).dedup

/-- Texts with the same bytes are the same. -/
theorem toList_toUTF8_inj {s t : String} (h : s.toUTF8.toList = t.toUTF8.toList) : s = t := by
  rw [toList_toUTF8, toList_toUTF8] at h
  have hlist : String.ofList s.toList = String.ofList t.toList := by
    apply String.toByteArray_inj.mp
    rw [String.toByteArray_ofList, String.toByteArray_ofList, List.utf8Encode, List.utf8Encode, h]
  rwa [String.ofList_toList, String.ofList_toList] at hlist

/-- No two texts stand before each other. -/
theorem Before.asymm {s t : String} (h : Before s t) : ¬ Before t s :=
  List.lt_asymm h

/-- What does not stand behind another text stands before it, or is the same. -/
theorem before_of_not {s t : String} (h : ¬ Before t s) (hne : s ≠ t) : Before s t :=
  (Bytes.lt_or_gt_of_ne fun heq => hne (toList_toUTF8_inj heq)).resolve_right h

/-- Sorting texts puts them in ascending order, each once. -/
theorem ascends_sorted (ts : List String) : Ascends Before ts (sorted ts) where
  pairwise := by
    have hsorted : (ts.mergeSort fun s t => decide (¬ Before t s)).Pairwise
        fun s t => decide (¬ Before t s) = true := by
      refine List.pairwise_mergeSort (fun a b c hab hbc => ?_) (fun a b => ?_) ts
      · rw [decide_eq_true_iff] at hab hbc ⊢
        exact List.not_lt.mpr (List.le_trans (List.not_lt.mp hab) (List.not_lt.mp hbc))
      · rw [Bool.or_eq_true, decide_eq_true_iff, decide_eq_true_iff]
        exact (List.le_total a.toUTF8.toList b.toUTF8.toList).imp List.not_lt.mpr List.not_lt.mpr
    have hkept := hsorted.sublist (List.dedup_sublist _)
    exact (hkept.and (List.nodup_dedup _)).imp fun ⟨hle, hne⟩ =>
      before_of_not (of_decide_eq_true hle) hne
  mem_iff t := by
    rw [sorted, List.mem_dedup, List.mem_mergeSort]

end Text

/-! ### Digits -/

namespace Hex

/-- The digits are in ascending order. -/
theorem digit_lt_digit_iff {m n : Nat} (hm : m < 16) (hn : n < 16) :
    (digit m).toUInt8 < (digit n).toUInt8 ↔ m < n := by
  have key : ∀ m < 16, ∀ n < 16, (digit m).toUInt8 < (digit n).toUInt8 ↔ m < n := by decide
  exact key m hm n hn

/-- Each digit stands for one number. -/
theorem digit_eq_digit_iff {m n : Nat} (hm : m < 16) (hn : n < 16) :
    (digit m).toUInt8 = (digit n).toUInt8 ↔ m = n := by
  have key : ∀ m < 16, ∀ n < 16, (digit m).toUInt8 = (digit n).toUInt8 ↔ m = n := by decide
  exact key m hm n hn

/-- Digits are compared as the bytes are that they stand for. -/
theorem chars_lt_iff (bs cs : Bytes) :
    (chars bs).map Char.toUInt8 < (chars cs).map Char.toUInt8 ↔ bs < cs := by
  induction bs generalizing cs with
  | nil =>
      cases cs with
      | nil => exact iff_of_false (List.lt_irrefl _) (List.lt_irrefl _)
      | cons c cs => exact iff_of_true (List.nil_lt_cons _ _) (List.nil_lt_cons _ _)
  | cons b bs ih =>
      cases cs with
      | nil => exact iff_of_false (List.not_lt_nil _) (List.not_lt_nil _)
      | cons c cs =>
          have hb := b.toNat_lt
          have hc := c.toNat_lt
          show (digit (b.toNat / 16)).toUInt8 :: (digit (b.toNat % 16)).toUInt8 ::
              (chars bs).map Char.toUInt8
            < (digit (c.toNat / 16)).toUInt8 :: (digit (c.toNat % 16)).toUInt8 ::
              (chars cs).map Char.toUInt8 ↔ _
          -- The first digits decide unless they are equal, and then the second ones do.
          rw [List.cons_lt_cons_iff, List.cons_lt_cons_iff, List.cons_lt_cons_iff, ih,
            digit_lt_digit_iff (by omega) (by omega), digit_eq_digit_iff (by omega) (by omega),
            digit_lt_digit_iff (by omega) (by omega), digit_eq_digit_iff (by omega) (by omega),
            UInt8.lt_iff_toNat_lt, ← UInt8.toNat_inj]
          by_cases hrest : bs < cs
          · simp only [hrest, and_true]
            omega
          · simp only [hrest, and_false, or_false]
            omega

end Hex

/-! ### Hashes -/

namespace ScriptHash

/-- Hashes with the same bytes are the same. -/
theorem eq_of_bytes_eq {h k : ScriptHash} (heq : h.bytes = k.bytes) : h = k := by
  cases h
  cases k
  cases heq
  rfl

/-- Texts of hashes stand in the order of the hashes. -/
theorem toHex_before_iff (h k : ScriptHash) : Text.Before h.toHex k.toHex ↔ h < k := by
  show (Hex.encode h.bytes).toUTF8.toList < (Hex.encode k.bytes).toUTF8.toList ↔ h.bytes < k.bytes
  rw [Hex.encode, Hex.encode, toList_toUTF8_ofList fun c => Hex.toNat_lt_of_mem_chars,
    toList_toUTF8_ofList fun c => Hex.toNat_lt_of_mem_chars, Hex.chars_lt_iff]

/-- Putting a hash into a list adds it and nothing else. -/
theorem mem_insertInto_iff (h x : ScriptHash) (hs : List ScriptHash) :
    x ∈ insertInto h hs ↔ x = h ∨ x ∈ hs := by
  induction hs with
  | nil => simp [insertInto]
  | cons k ks ih =>
      rw [insertInto]
      split
      · next heq => simp [heq]
      · split
        · simp
        · rw [List.mem_cons, ih, List.mem_cons]
          exact or_left_comm

/-- Putting a hash into an ascending list leaves it ascending. -/
theorem pairwise_insertInto (h : ScriptHash) {hs : List ScriptHash} (hhs : hs.Pairwise (· < ·)) :
    (insertInto h hs).Pairwise (· < ·) := by
  induction hs with
  | nil => exact List.pairwise_singleton _ h
  | cons k ks ih =>
      obtain ⟨hfirst, hrest⟩ := List.pairwise_cons.mp hhs
      rw [insertInto]
      split
      · exact hhs
      · next hne =>
          split
          · next hlt =>
              refine List.pairwise_cons.mpr ⟨fun x hx => ?_, hhs⟩
              rcases List.mem_cons.mp hx with rfl | hx
              · exact hlt
              · exact List.lt_trans hlt (hfirst x hx)
          · next hnot =>
              -- The hash stands behind the first one, and so behind it after it was put in.
              have hbehind : k < h :=
                (Bytes.lt_or_gt_of_ne fun heq => hne (eq_of_bytes_eq heq)).resolve_left hnot
              refine List.pairwise_cons.mpr ⟨fun x hx => ?_, ih hrest⟩
              rcases (mem_insertInto_iff h x ks).mp hx with rfl | hx
              · exact hbehind
              · exact hfirst x hx

/-- Sorting hashes puts them in ascending order, each once. -/
theorem ascends_sorted (hs : List ScriptHash) : Ascends (· < ·) hs (sorted hs) := by
  induction hs with
  | nil => exact ⟨List.Pairwise.nil, fun x => Iff.rfl⟩
  | cons h hs ih =>
      refine ⟨pairwise_insertInto h ih.pairwise, fun x => ?_⟩
      rw [List.mem_cons, ← ih.mem_iff x]
      exact mem_insertInto_iff h x (sorted hs)

/-- The texts of hashes in ascending order are in ascending order. -/
theorem ascends_map_toHex {hs ks : List ScriptHash} (h : Ascends (· < ·) hs ks) :
    Ascends Text.Before (hs.map toHex) (ks.map toHex) where
  pairwise := List.pairwise_map.mpr (h.pairwise.imp fun hlt => (toHex_before_iff _ _).mpr hlt)
  mem_iff t := by
    simp only [List.mem_map, h.mem_iff]

/-- Hashes and their texts are in the same order.

* One hash stands before another if its text does, and not otherwise.
* Two hashes are the same if their texts are.
* A list of hashes in ascending order, each once, has the texts that are found by putting the texts
  in ascending order, each once. Both are the only lists of this kind. -/
theorem toHex_order :
    (∀ a b : ScriptHash, a < b ↔ Text.Before a.toHex b.toHex) ∧
    (∀ a b : ScriptHash, a = b ↔ a.toHex = b.toHex) ∧
    ∀ hs : List ScriptHash,
      (∀ ks, Ascends (· < ·) hs ks ↔ ks = sorted hs) ∧
      (∀ ts, Ascends Text.Before (hs.map toHex) ts ↔ ts = Text.sorted (hs.map toHex)) ∧
      Text.sorted (hs.map toHex) = (sorted hs).map toHex := by
  have hhashes : ∀ a b : ScriptHash, a < b → ¬ b < a := fun a b => List.lt_asymm
  have htexts : ∀ s t : String, Text.Before s t → ¬ Text.Before t s := fun s t => Text.Before.asymm
  refine ⟨fun a b => (toHex_before_iff a b).symm, fun a b => ⟨congrArg toHex, toHex_inj⟩,
    fun hs => ⟨fun ks => ⟨fun h => ?_, ?_⟩, fun ts => ⟨fun h => ?_, ?_⟩, ?_⟩⟩
  · exact h.unique hhashes (ascends_sorted hs)
  · rintro rfl
    exact ascends_sorted hs
  · exact h.unique htexts (Text.ascends_sorted _)
  · rintro rfl
    exact Text.ascends_sorted _
  · exact (Text.ascends_sorted _).unique htexts (ascends_map_toHex (ascends_sorted hs))

end ScriptHash

end Countersign
