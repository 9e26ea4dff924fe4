import Countersign.ScriptHash

/-!
# `Countersign.Proofs.Bytes.Hex`: reading what is written as digits

A text is read by its UTF-8 bytes, and written as characters. For digits this makes no difference,
as each of them is one byte (`toList_toUTF8_ofList`), and no other character has such bytes
(`toNat_lt_of_mem_toList`). So `Hex.decode_encode` is an induction on the byte string, two digits at
a time, and `ScriptHash.parse_toHex` follows, since forty digits are twenty bytes.
-/

set_option autoImplicit false

namespace Countersign

/-! ### The bytes of a text -/

/-- A loop goes through the bytes from `i` on, and keeps those that it has seen the latest first. -/
private theorem toList_loop (bytes : ByteArray) (i : Nat) (seen : List UInt8) :
    ByteArray.toList.loop bytes i seen = seen.reverse ++ bytes.data.toList.drop i := by
  -- The induction follows the loop, which goes up to the size of the array.
  fun_induction ByteArray.toList.loop bytes i seen with
  | case1 i seen hlt ih =>
      have hbound : i < bytes.data.toList.length := hlt
      have hnext : bytes.get! i = bytes.data.toList[i] := getElem!_pos bytes.data i hbound
      rw [ih, hnext, List.reverse_cons, List.append_assoc, List.singleton_append,
        ← List.drop_eq_getElem_cons hbound]
  | case2 i seen hge =>
      rw [List.drop_eq_nil_of_le (Nat.le_of_not_lt hge), List.append_nil]

/-- The bytes of an array are those of the list it is made of. -/
theorem toList_toByteArray (bs : Bytes) : bs.toByteArray.toList = bs := by
  rw [ByteArray.toList, toList_loop, List.toList_data_toByteArray]
  rfl

/-- The bytes of a text are those of its characters. -/
theorem toList_toUTF8 (s : String) :
    s.toUTF8.toList = s.toList.flatMap String.utf8EncodeChar := by
  have hbytes : s.toUTF8 = (s.toList.flatMap String.utf8EncodeChar).toByteArray := by
    have hlist : s.toByteArray = (String.ofList s.toList).toByteArray := by
      rw [String.ofList_toList]
    rw [String.toUTF8_eq_toByteArray, hlist, String.toByteArray_ofList, List.utf8Encode]
  rw [hbytes, toList_toByteArray]

/-- A text of characters from ASCII has one byte for each of them. -/
theorem toList_toUTF8_ofList {cs : List Char} (h : ∀ c ∈ cs, c.toNat < 128) :
    (String.ofList cs).toUTF8.toList = cs.map Char.toUInt8 := by
  rw [toList_toUTF8, String.toList_ofList]
  induction cs with
  | nil => rfl
  | cons c cs ih =>
      have hc : c.toNat < 128 := h c List.mem_cons_self
      have hsize : c.utf8Size = 1 := by
        rw [Char.utf8Size_eq_one_iff, UInt32.le_iff_toNat_le]
        exact Nat.le_of_lt_succ hc
      rw [List.flatMap_cons, String.utf8EncodeChar_eq_singleton hsize,
        ih fun d hd => h d (List.mem_cons_of_mem c hd)]
      rfl

/-- A text whose bytes are all from ASCII has no other characters: each byte of one is larger. -/
theorem toNat_lt_of_mem_toList {s : String} (h : ∀ b ∈ s.toUTF8.toList, b.toNat < 128) {c : Char}
    (hc : c ∈ s.toList) : c.toNat < 128 := by
  refine Nat.lt_of_not_le ?_
  intro hlarge
  have hother : 128 ≤ c.val.toNat := hlarge
  -- The first byte tells how many there are, and the numbers for that begin at 192.
  have hfirst : ∃ b ∈ String.utf8EncodeChar c, 128 ≤ b.toNat := by
    rw [String.utf8EncodeChar, if_neg (by omega)]
    repeat' split
    all_goals
      refine ⟨_, List.mem_cons_self, ?_⟩
      rw [UInt8.toNat_ofNat']
      omega
  obtain ⟨b, hb, hge⟩ := hfirst
  have hlt := h b (by rw [toList_toUTF8]; exact List.mem_flatMap_of_mem hc hb)
  omega

/-! ### Digits -/

namespace Hex

/-- Digits are from ASCII. -/
theorem toNat_digit_lt {n : Nat} (h : n < 16) : (digit n).toNat < 128 := by
  have key : ∀ n < 16, (digit n).toNat < 128 := by decide
  exact key n h

/-- A digit is read as the number that it was written for. -/
theorem value?_digit {n : Nat} (h : n < 16) :
    value? (digit n).toUInt8 = some (UInt8.ofNat n) := by
  have key : ∀ n < 16, value? (digit n).toUInt8 = some (UInt8.ofNat n) := by decide
  exact key n h

/-- A byte is put together from its two halves. -/
theorem byte_of_halves (b : UInt8) :
    UInt8.ofNat (b.toNat / 16) * 16 + UInt8.ofNat (b.toNat % 16) = b := by
  have hb := b.toNat_lt
  apply UInt8.toNat_inj.mp
  rw [UInt8.toNat_add, UInt8.toNat_mul]
  simp only [UInt8.toNat_ofNat']
  have hhalves := Nat.div_add_mod b.toNat 16
  have h16 : (16 : UInt8).toNat = 16 := rfl
  rw [h16]
  omega

/-- The digits of a byte are those that its halves were read from. -/
theorem ofByte_of_halves {m n : Nat} (hm : m < 16) (hn : n < 16) :
    ofByte (UInt8.ofNat m * 16 + UInt8.ofNat n) = [digit m, digit n] := by
  have h16 : (16 : UInt8).toNat = 16 := rfl
  have hbyte : (UInt8.ofNat m * 16 + UInt8.ofNat n).toNat = 16 * m + n := by
    rw [UInt8.toNat_add, UInt8.toNat_mul, UInt8.toNat_ofNat', UInt8.toNat_ofNat', h16]
    omega
  have hdiv : (16 * m + n) / 16 = m := by omega
  have hmod : (16 * m + n) % 16 = n := by omega
  rw [ofByte, hbyte, hdiv, hmod]

/-- Two digits are read as one byte, and the rest from there. -/
theorem decodeFrom_pair {high low h l : UInt8} (hhigh : value? high = some h)
    (hlow : value? low = some l) (place : Nat) (rest : Bytes) :
    decodeFrom place (high :: low :: rest)
      = (decodeFrom (place + 2) rest).map ((h * 16 + l) :: ·) := by
  rw [decodeFrom, hhigh, hlow]

/-- Each byte is written as two digits. -/
theorem length_chars (bs : Bytes) : (chars bs).length = 2 * bs.length := by
  induction bs with
  | nil => rfl
  | cons b bs ih =>
      rw [chars, List.flatMap_cons, List.length_append, List.length_cons]
      rw [chars] at ih
      rw [ih]
      show 2 + 2 * bs.length = _
      omega

/-- The text of a byte string is from ASCII. -/
theorem toNat_lt_of_mem_chars {bs : Bytes} {c : Char} (h : c ∈ chars bs) : c.toNat < 128 := by
  rw [chars, List.mem_flatMap] at h
  obtain ⟨b, -, hc⟩ := h
  have hb := b.toNat_lt
  simp only [ofByte, List.mem_cons, List.not_mem_nil, or_false] at hc
  rcases hc with rfl | rfl
  · exact toNat_digit_lt (by omega)
  · exact toNat_digit_lt (by omega)

/-- Reading the digits of a byte string gives it back, wherever reading begins. -/
theorem decodeFrom_chars (bs : Bytes) (place : Nat) :
    decodeFrom place ((chars bs).map Char.toUInt8) = .ok bs := by
  -- The place is counted along, and matters only to an error.
  induction bs generalizing place with
  | nil => rfl
  | cons b bs ih =>
      have hb := b.toNat_lt
      have hhigh := value?_digit (n := b.toNat / 16) (by omega)
      have hlow := value?_digit (n := b.toNat % 16) (by omega)
      show decodeFrom place ((digit (b.toNat / 16)).toUInt8 :: (digit (b.toNat % 16)).toUInt8 ::
        (chars bs).map Char.toUInt8) = _
      rw [decodeFrom_pair hhigh hlow, ih, byte_of_halves]
      rfl

/-- Reading the digits of a byte string gives it back. -/
theorem decode_encode (bs : Bytes) : decode (encode bs).toUTF8.toList = .ok bs := by
  rw [encode, toList_toUTF8_ofList fun c => toNat_lt_of_mem_chars, decode, if_neg]
  · exact decodeFrom_chars bs 0
  · rw [List.length_map, length_chars]
    omega

end Hex

/-! ### Script hashes -/

namespace ScriptHash

/-- Reading the digits of a hash gives it back. -/
theorem parse_toHex (h : ScriptHash) : parse h.toHex = .ok h := by
  rw [parse, toHex, Hex.decode_encode]
  dsimp only
  rw [ofBytes?, dif_pos h.length_bytes]

/-- Hashes with the same text are the same. -/
theorem toHex_inj {h h' : ScriptHash} (heq : h.toHex = h'.toHex) : h = h' := by
  have hread := parse_toHex h
  rw [heq, parse_toHex h'] at hread
  exact (Except.ok.inj hread).symm

/-- The text of a hash has forty digits. -/
theorem length_toHex (h : ScriptHash) : h.toHex.toList.length = 40 := by
  rw [toHex, Hex.encode, String.toList_ofList, Hex.length_chars, h.length_bytes]

end ScriptHash

end Countersign
