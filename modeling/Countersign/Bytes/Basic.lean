/-!
# `Countersign.Bytes.Basic`: byte strings

Scripts, stack items, keys, signatures and hashes are all plain byte strings. They are lists,
so that reading one is recursion on the data.

`splitAt?` is the one way in which anything is cut off the front of a byte string. It answers
only when enough bytes are there, and looks at no more of them than it cuts off
(`splitAt?_eq_some_iff`, `splitAt?_eq_none_iff`).
-/

set_option autoImplicit false

namespace Countersign

/-- A byte string, first byte first. -/
abbrev Bytes := List UInt8

namespace Bytes

/-- The first `n` bytes and what follows them, if there are that many. -/
def splitAt? : Nat → Bytes → Option (Bytes × Bytes)
  | 0, bs => some ([], bs)
  | _ + 1, [] => none
  | n + 1, b :: bs => (splitAt? n bs).map fun (front, rest) => (b :: front, rest)

/-- A cut gives the two parts back: nothing is lost and the first part has the length asked for. -/
theorem splitAt?_eq_some_iff {n : Nat} {bs front rest : Bytes} :
    splitAt? n bs = some (front, rest) ↔ bs = front ++ rest ∧ front.length = n := by
  induction n generalizing bs front with
  | zero =>
    simp only [splitAt?, Option.some.injEq, Prod.mk.injEq, List.length_eq_zero_iff]
    constructor
    · rintro ⟨rfl, rfl⟩; simp
    · rintro ⟨rfl, rfl⟩; simp
  | succ n ih =>
    cases bs with
    | nil =>
      simp only [splitAt?, reduceCtorEq, false_iff, not_and]
      intro h
      have : front = [] := (List.append_eq_nil_iff.mp h.symm).1
      simp [this]
    | cons b bs =>
      simp only [splitAt?, Option.map_eq_some_iff, Prod.exists, Prod.mk.injEq]
      constructor
      · rintro ⟨f, r, h, rfl, rfl⟩
        obtain ⟨rfl, hl⟩ := ih.mp h
        simp [hl]
      · rintro ⟨h, hl⟩
        cases front with
        | nil => simp at hl
        | cons c front =>
          simp only [List.cons_append, List.cons.injEq] at h
          obtain ⟨rfl, rfl⟩ := h
          exact ⟨front, rest, ih.mpr ⟨rfl, by simpa using hl⟩, rfl, rfl⟩

/-- A cut fails exactly when too few bytes are there. -/
theorem splitAt?_eq_none_iff {n : Nat} {bs : Bytes} :
    splitAt? n bs = none ↔ bs.length < n := by
  induction n generalizing bs with
  | zero => simp [splitAt?]
  | succ n ih =>
    cases bs with
    | nil => simp [splitAt?]
    | cons b bs => simp [splitAt?, ih]

/-- What holds of the 256 bytes one by one holds of every byte. -/
@[elab_as_elim]
theorem forall_byte {motive : UInt8 → Prop} (h : ∀ n < 256, motive (UInt8.ofNat n)) (b : UInt8) :
    motive b := by
  have hb := h b.toNat b.toNat_lt
  rwa [UInt8.ofNat_toNat] at hb

/-- The number that the bytes write, most significant byte first. -/
def toNatBE (bs : Bytes) : Nat :=
  bs.foldl (fun n b => n * 256 + b.toNat) 0

/-- The number that the bytes write, least significant byte first. -/
def toNatLE : Bytes → Nat
  | [] => 0
  | b :: bs => b.toNat + 256 * toNatLE bs

/-- The low `width` bytes of a number, least significant byte first. -/
def ofNatLE : (width : Nat) → Nat → Bytes
  | 0, _ => []
  | width + 1, n => UInt8.ofNat n :: ofNatLE width (n / 256)

/-- The low `width` bytes of a number, most significant byte first. -/
def ofNatBE (width n : Nat) : Bytes :=
  (ofNatLE width n).reverse

/-- A number is written with as many bytes as it is given. -/
@[simp] theorem length_ofNatLE (width n : Nat) : (ofNatLE width n).length = width := by
  induction width generalizing n with
  | zero => rfl
  | succ width ih => simp [ofNatLE, ih]

/-- The order of the bytes does not change how many there are. -/
@[simp] theorem length_ofNatBE (width n : Nat) : (ofNatBE width n).length = width := by
  simp [ofNatBE]

end Bytes

/-- What is long enough can be split behind its first `n` elements. -/
theorem exists_append_of_le {α : Type} {n : Nat} {xs : List α} (h : n ≤ xs.length) :
    ∃ front rest, xs = front ++ rest ∧ front.length = n := by
  refine ⟨xs.take n, xs.drop n, (List.take_append_drop n xs).symm, ?_⟩
  rw [List.length_take, Nat.min_eq_left h]

end Countersign
