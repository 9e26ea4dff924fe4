import Mathlib.Data.Nat.Bitwise
import Countersign.Proofs.Script.Number

/-!
# `Countersign.Proofs.Script.FixedWidth`: numbers read in machine words

`Number.decode` computes with whole numbers, which have no bounds. A machine has words of 64 bits,
and `Number.decodeWord?` is the same reading in these: bytes are moved to their places and joined
bit by bit, the sign bit is masked out, and the rest is negated if it was set. It fails as soon as a
step does not fit: a bit that is moved off the word, a magnitude that needs the bit of the sign, a
number without an opposite.

`decodeWord?_eq` says that it never fails, whatever is read, and that it finds the same number. The
word is below the power of its width while it is put together, so joining is adding, and its top bit
is that of the last byte.
-/

set_option autoImplicit false

namespace Countersign.Number

/-! ### Steps that may not fit -/

/-- A word moved to the left, if the distance is one and no bit falls off. -/
def shiftLeft? (x : UInt64) (distance : Nat) : Option UInt64 :=
  if distance < 64 ∧ x.toNat * 2 ^ distance < 2 ^ 64 then some (x <<< UInt64.ofNat distance)
  else none

/-- A word as a number with a sign, if it leaves the bit for it free. -/
def toSigned? (x : UInt64) : Option Int64 :=
  if x.toNat < 2 ^ 63 then some x.toInt64 else none

/-- The opposite of a number. The least one has none. -/
def negate? (i : Int64) : Option Int64 :=
  if i = Int64.minValue then none else some (-i)

/-- Joins bytes to a word, the first of them at `place`. -/
def joinFrom? : (place : Nat) → (word : UInt64) → Bytes → Option UInt64
  | _, word, [] => some word
  | place, word, b :: bs => do
    let moved ← shiftLeft? b.toUInt64 (8 * place)
    joinFrom? (place + 1) (word ||| moved) bs

/-- The number that an item stands for, computed in words. -/
def decodeWord? (item : Bytes) : Option Int64 :=
  if item = [] then some 0
  else if 8 < item.length then some (-1)
  else do
    let word ← joinFrom? 0 0 item
    let signBit ← shiftLeft? 0x80 (8 * (item.length - 1))
    if word &&& signBit ≠ 0 then
      let magnitude ← toSigned? (word &&& ~~~ signBit)
      negate? magnitude
    else toSigned? word

/-! ### Every step fits -/

/-- A word can be moved as far as no bit falls off. -/
theorem exists_shiftLeft? (x : UInt64) {distance : Nat} (hdistance : distance < 64)
    (hfits : x.toNat * 2 ^ distance < 2 ^ 64) :
    ∃ moved, shiftLeft? x distance = some moved ∧ moved.toNat = x.toNat * 2 ^ distance := by
  refine ⟨_, if_pos ⟨hdistance, hfits⟩, ?_⟩
  have hword : (UInt64.ofNat distance).toNat = distance :=
    UInt64.toNat_ofNat_of_lt' (Nat.lt_trans hdistance (by decide))
  rw [UInt64.toNat_shiftLeft, hword, Nat.mod_eq_of_lt hdistance, Nat.shiftLeft_eq,
    Nat.mod_eq_of_lt hfits]

/-- A word below half of the range keeps its value when it is given a sign. -/
theorem exists_toSigned? (x : UInt64) (h : x.toNat < 2 ^ 63) :
    ∃ i, toSigned? x = some i ∧ i.toInt = x.toNat := by
  refine ⟨x.toInt64, if_pos h, ?_⟩
  show x.toBitVec.toInt = _
  rw [BitVec.toInt_eq_toNat_of_lt (by show 2 * x.toNat < 2 ^ 64; omega)]
  rfl

/-- A number that is not negative has an opposite. -/
theorem exists_negate? (i : Int64) (h : 0 ≤ i.toInt) :
    ∃ j, negate? i = some j ∧ j.toInt = -i.toInt := by
  -- The least number is the only one whose opposite is missing.
  have hne : i ≠ Int64.minValue := by
    rintro rfl
    revert h
    decide
  have hlt := i.toInt_lt
  refine ⟨-i, if_neg hne, ?_⟩
  rw [Int64.toInt_neg, Int.bmod_eq_of_le (by omega) (by omega)]

/-- Joining bytes above the bits of a word adds what they write. -/
theorem exists_joinFrom? {place : Nat} {word : UInt64} (bs : Bytes)
    (hplaces : place + bs.length ≤ 8) (hword : word.toNat < 256 ^ place) :
    ∃ joined, joinFrom? place word bs = some joined ∧
      joined.toNat = word.toNat + 256 ^ place * Bytes.toNatLE bs := by
  induction bs generalizing place word with
  | nil => exact ⟨word, rfl, rfl⟩
  | cons b bs ih =>
      rw [List.length_cons] at hplaces
      have hbyte : b.toUInt64.toNat < 256 := b.toNat_lt
      have hpower : 2 ^ (8 * place) = 256 ^ place := Nat.pow_mul 2 8 place
      have hroom : 256 ^ (place + 1) ≤ 256 ^ 8 := Nat.pow_le_pow_right (by decide) (by omega)
      have hnext : 256 ^ (place + 1) = 256 * 256 ^ place := Nat.pow_succ'
      have hfits : b.toUInt64.toNat * 2 ^ (8 * place) < 256 ^ (place + 1) := by
        rw [hpower, hnext]
        exact Nat.mul_lt_mul_of_pos_right hbyte (Nat.pow_pos (by decide))
      obtain ⟨moved, hmoved, hvalue⟩ :=
        exists_shiftLeft? b.toUInt64 (by omega) (Nat.lt_of_lt_of_le hfits hroom)
      -- The byte lies above the bits of the word, so that no two bits meet.
      have hor : (word ||| moved).toNat = word.toNat + 256 ^ place * b.toUInt64.toNat := by
        rw [UInt64.toNat_or, hvalue, Nat.or_comm, Nat.mul_comm, ← hpower,
          ← Nat.two_pow_add_eq_or_of_lt (by rw [hpower]; exact hword), Nat.add_comm]
      have hbound : (word ||| moved).toNat < 256 ^ (place + 1) := by
        rw [hor, hnext]
        calc word.toNat + 256 ^ place * b.toUInt64.toNat
            < 256 ^ place + 256 ^ place * 255 :=
              Nat.add_lt_add_of_lt_of_le hword (Nat.mul_le_mul_left _ (by omega))
          _ = 256 * 256 ^ place := by omega
      obtain ⟨joined, hjoined, hall⟩ := ih (by omega) hbound
      refine ⟨joined, ?_, ?_⟩
      · rw [joinFrom?, hmoved]
        exact hjoined
      · rw [hall, hor, hnext, Bytes.toNatLE, Nat.mul_add, Nat.add_assoc, Nat.mul_assoc,
          Nat.mul_left_comm 256]
        rfl

/-! ### The sign bit -/

/-- The bit of the sign in the words of a last byte that is moved to the top. -/
theorem toNat_and_signBit {word signBit : UInt64} {low : Nat} {last : UInt8} {bits : Nat}
    (hword : word.toNat = low + 2 ^ bits * last.toNat) (hlow : low < 2 ^ bits)
    (hsign : signBit.toNat = 0x80 * 2 ^ bits) :
    (word &&& signBit).toNat = if 0x80 ≤ last then 0x80 * 2 ^ bits else 0 := by
  have hpower : 0x80 * 2 ^ bits = 2 ^ (bits + 7) := by rw [Nat.pow_add, Nat.mul_comm]
  have hquotient : word.toNat / 2 ^ (bits + 7) = last.toNat / 128 := by
    rw [hword, Nat.pow_add, ← Nat.div_div_eq_div_mul, Nat.add_mul_div_left _ _ (Nat.two_pow_pos bits),
      Nat.div_eq_of_lt hlow, Nat.zero_add]
  have hlast := last.toNat_lt
  rw [UInt64.toNat_and, hsign, hpower, Nat.and_two_pow, Nat.testBit_eq_decide_div_mod_eq, hquotient]
  by_cases htop : 0x80 ≤ last
  · have hle : 128 ≤ last.toNat := UInt8.le_iff_toNat_le.mp htop
    have hbit : last.toNat / 128 % 2 = 1 := by omega
    rw [hbit, if_pos htop]
    exact Nat.one_mul _
  · have hlt : last.toNat < 128 := Nat.lt_of_not_le fun h => htop (UInt8.le_iff_toNat_le.mpr h)
    have hbit : last.toNat / 128 % 2 = 0 := by omega
    rw [hbit, if_neg htop]
    exact Nat.zero_mul _

/-- Masking bits out takes away what they count. -/
theorem toNat_and_not (x mask : UInt64) :
    (x &&& ~~~ mask).toNat = x.toNat - (x &&& mask).toNat := by
  -- The two parts share no bit, so their sum is both of them together, which is `x`.
  have hsplit : (x &&& ~~~ mask).toBitVec + (x &&& mask).toBitVec = x.toBitVec := by
    have hapart : (x &&& ~~~ mask).toBitVec &&& (x &&& mask).toBitVec = 0#64 := by
      ext i
      simp only [UInt64.toBitVec_and, UInt64.toBitVec_not]
      grind
    rw [BitVec.add_eq_or_of_and_eq_zero _ _ hapart]
    ext i
    simp only [UInt64.toBitVec_and, UInt64.toBitVec_not]
    grind
  have hnat := congrArg BitVec.toNat hsplit
  rw [BitVec.toNat_add] at hnat
  have hleft : (x &&& ~~~ mask).toNat ≤ x.toNat := by
    rw [UInt64.toNat_and]
    exact Nat.and_le_left
  have hright : (x &&& mask).toNat ≤ x.toNat := by
    rw [UInt64.toNat_and]
    exact Nat.and_le_left
  have hx := x.toNat_lt
  simp only [UInt64.toNat_toBitVec] at hnat
  omega

/-! ### The last byte -/

/-- A number stays below the next value of its last byte. -/
theorem toNatLE_concat_lt (front : Bytes) {last : UInt8} {n : Nat} (h : last.toNat < n) :
    Bytes.toNatLE (front ++ [last]) < n * 256 ^ front.length := by
  have hfront := Bytes.toNatLE_lt front
  rw [Bytes.toNatLE_append, Bytes.toNatLE_singleton]
  calc Bytes.toNatLE front + 256 ^ front.length * last.toNat
      < 256 ^ front.length + 256 ^ front.length * last.toNat := Nat.add_lt_add_right hfront _
    _ = (last.toNat + 1) * 256 ^ front.length := by rw [Nat.add_mul, Nat.mul_comm]; omega
    _ ≤ n * 256 ^ front.length := Nat.mul_le_mul_right _ h

/-- A byte without the sign bit is below that bit. -/
theorem toNat_lt_of_not_le {last : UInt8} (h : ¬ 0x80 ≤ last) : last.toNat < 0x80 :=
  Nat.lt_of_not_le fun hle => h (UInt8.le_iff_toNat_le.mpr hle)

/-- Without its top bit a byte is below that bit. -/
theorem toNat_clear_lt (last : UInt8) : (last &&& 0x7F).toNat < 0x80 := by
  rw [UInt8.toNat_and]
  exact Nat.lt_of_le_of_lt Nat.and_le_right (by decide)

/-- A byte with a top bit is that bit and the others. -/
theorem toNat_eq_clear {last : UInt8} (h : 0x80 ≤ last) :
    last.toNat = (last &&& 0x7F).toNat + 0x80 := by
  have key : ∀ n < 256, 0x80 ≤ UInt8.ofNat n →
      (UInt8.ofNat n).toNat = (UInt8.ofNat n &&& 0x7F).toNat + 0x80 := by
    decide +kernel
  exact Bytes.forall_byte (motive := fun b => 0x80 ≤ b → b.toNat = (b &&& 0x7F).toNat + 0x80) key
    last h

/-- Clearing the top bit of the last byte takes away what it counts. -/
theorem toNatLE_clear (front : Bytes) {last : UInt8} (h : 0x80 ≤ last) :
    Bytes.toNatLE (front ++ [last])
      = Bytes.toNatLE (front ++ [last &&& 0x7F]) + 0x80 * 256 ^ front.length := by
  rw [Bytes.toNatLE_append, Bytes.toNatLE_append, Bytes.toNatLE_singleton, Bytes.toNatLE_singleton,
    toNat_eq_clear h, Nat.mul_add, Nat.mul_comm 0x80, Nat.add_assoc]

/-! ### Reading -/

/-- The word that an item is joined to, and what masking its sign bit out leaves to look at. -/
theorem exists_word {front : Bytes} (last : UInt8) (hshort : front.length < 8) :
    ∃ word signBit, joinFrom? 0 0 (front ++ [last]) = some word ∧
      shiftLeft? 0x80 (8 * ((front ++ [last]).length - 1)) = some signBit ∧
      word.toNat = Bytes.toNatLE (front ++ [last]) ∧
      (word &&& signBit).toNat = if 0x80 ≤ last then 0x80 * 256 ^ front.length else 0 := by
  have hlength : (front ++ [last]).length = front.length + 1 := List.length_append
  have hpower : 2 ^ (8 * front.length) = 256 ^ front.length := Nat.pow_mul 2 8 front.length
  have hroom : 256 ^ front.length ≤ 256 ^ 7 :=
    Nat.pow_le_pow_right (by decide) (Nat.le_of_lt_succ hshort)
  have hjoins : 0 + (front ++ [last]).length ≤ 8 := by omega
  have hzero : (0 : UInt64).toNat < 256 ^ 0 := Nat.one_pos
  obtain ⟨word, hjoined, hword⟩ := exists_joinFrom? (front ++ [last]) hjoins hzero
  have hdistance : 8 * front.length < 64 := by omega
  have hfits : (0x80 : UInt64).toNat * 2 ^ (8 * front.length) < 2 ^ 64 := by
    rw [hpower]
    exact Nat.lt_of_le_of_lt (Nat.mul_le_mul_left 0x80 hroom) (by decide)
  obtain ⟨signBit, hmoved, hsign⟩ := exists_shiftLeft? 0x80 hdistance hfits
  have hvalue : word.toNat = Bytes.toNatLE (front ++ [last]) := by
    rw [hword]
    show 0 + 1 * _ = _
    omega
  refine ⟨word, signBit, hjoined, by rw [hlength]; exact hmoved, hvalue, ?_⟩
  rw [← hpower]
  have hparts : word.toNat = Bytes.toNatLE front + 2 ^ (8 * front.length) * last.toNat := by
    rw [hvalue, Bytes.toNatLE_append, Bytes.toNatLE_singleton, hpower]
  exact toNat_and_signBit hparts (by rw [hpower]; exact Bytes.toNatLE_lt front) hsign

/-- Reading in words never fails, and finds the number that the item stands for. -/
theorem decodeWord?_eq (item : Bytes) :
    ∃ i, decodeWord? item = some i ∧ i.toInt = decode item := by
  induction item using List.reverseRecOn with
  | nil => exact ⟨0, rfl, rfl⟩
  | append_singleton front last _ =>
      rw [decodeWord?, if_neg (List.append_ne_nil_of_right_ne_nil front (List.cons_ne_nil _ _))]
      by_cases hlong : 8 < (front ++ [last]).length
      · exact ⟨-1, if_pos hlong, (decode_of_length hlong).symm⟩
      have hshort : front.length < 8 := by
        rw [List.length_append, List.length_singleton] at hlong
        omega
      have hroom : 256 ^ front.length ≤ 256 ^ 7 :=
        Nat.pow_le_pow_right (by decide) (Nat.le_of_lt_succ hshort)
      obtain ⟨word, signBit, hjoined, hmoved, hword, hbit⟩ := exists_word last hshort
      rw [if_neg hlong, decode_append _ _ hshort]
      simp only [hjoined, hmoved, Option.bind_eq_bind, Option.bind_some]
      by_cases htop : 0x80 ≤ last
      · rw [if_pos htop] at hbit ⊢
        have hset : word &&& signBit ≠ 0 := by
          intro hzero
          rw [hzero] at hbit
          exact absurd hbit (Nat.ne_of_lt (Nat.mul_pos (by decide) (Nat.pow_pos (by decide))))
        have hclear : (word &&& ~~~ signBit).toNat = Bytes.toNatLE (front ++ [last &&& 0x7F]) := by
          rw [toNat_and_not, hbit, hword, toNatLE_clear front htop, Nat.add_sub_cancel]
        have hbound := toNatLE_concat_lt front (toNat_clear_lt last)
        obtain ⟨i, hi, hmagnitude⟩ := exists_toSigned? (word &&& ~~~ signBit) (by omega)
        obtain ⟨j, hj, hopposite⟩ := exists_negate? i (by omega)
        refine ⟨j, ?_, by rw [hopposite, hmagnitude, hclear]⟩
        rw [if_pos hset, hi]
        exact hj
      · rw [if_neg htop] at hbit ⊢
        have hunset : ¬ word &&& signBit ≠ 0 := not_not_intro (UInt64.toNat_inj.mp hbit)
        have hbound := toNatLE_concat_lt front (toNat_lt_of_not_le htop)
        obtain ⟨i, hi, hvalue⟩ := exists_toSigned? word (by omega)
        exact ⟨i, by rw [if_neg hunset, hi], by rw [hvalue, hword]⟩

end Countersign.Number
