import Mathlib.Data.List.Induction
import Countersign.Proofs.Bytes.Hex
import Countersign.Proofs.Decimal.Digits
import Countersign.Proofs.Text.Quoted
import Countersign.Schema.Mismatch

/-!
# `Countersign.Proofs.Bytes.HashText`: which texts are script hashes

A script hash comes from outside as text, so a text that is none has to be refused for a reason
that helps. There may be several reasons at once: a text can have an odd number of bytes, hold
characters that are no digits, and be too long.

`ScriptHash.parse_decides` says which of them is given, for every text. The number of bytes counts
first, then the first byte that is no digit, then the length. Nothing else is refused: a text of
forty digits is the hash whose digits these are, in capitals or not.

Bytes are counted, not characters. A character that is not from ASCII has several bytes and none of
them is a digit, so the byte that is named is its first. Which reason it was, which byte and where,
can be told from the text of the message (`ScriptHash.Malformed.reason_inj`).
-/

set_option autoImplicit false

namespace Countersign

/-! ### Reading digits -/

namespace Hex

/-- The bytes that are hexadecimal digits, in small letters or capitals. -/
def IsDigit (b : UInt8) : Prop :=
  (('0').toNat ≤ b.toNat ∧ b.toNat ≤ ('9').toNat) ∨
    (('a').toNat ≤ b.toNat ∧ b.toNat ≤ ('f').toNat) ∨
    (('A').toNat ≤ b.toNat ∧ b.toNat ≤ ('F').toNat)

instance (b : UInt8) : Decidable (IsDigit b) :=
  inferInstanceAs (Decidable (_ ∨ _))

/-- A byte has a value as a digit if and only if it is one. -/
theorem value?_eq_none_iff {b : UInt8} : value? b = none ↔ ¬ IsDigit b :=
  Bytes.forall_byte (by decide +kernel) b

/-- A digit has a value. -/
theorem IsDigit.exists_value? {b : UInt8} (h : IsDigit b) : ∃ v, value? b = some v := by
  cases hb : value? b with
  | none => exact absurd h (value?_eq_none_iff.mp hb)
  | some v => exact ⟨v, rfl⟩

/-- A digit has a value, and written again it is the same but for capitals. -/
theorem value?_of_isDigit {c : Char} (hascii : c.toNat < 128) (h : IsDigit c.toUInt8) :
    ∃ n < 16, value? c.toUInt8 = some (UInt8.ofNat n) ∧ digit n = c.toLower := by
  have key : ∀ k < 128, IsDigit (Char.ofNat k).toUInt8 →
      ∃ n < 16, value? (Char.ofNat k).toUInt8 = some (UInt8.ofNat n) ∧
        digit n = (Char.ofNat k).toLower := by
    decide +kernel
  have hc := key c.toNat hascii
  rw [Char.ofNat_toNat] at hc
  exact hc h

/-- Digits are from ASCII. -/
theorem IsDigit.toNat_lt {b : UInt8} (h : IsDigit b) : b.toNat < 128 := by
  have hnine : ('9').toNat = 57 := rfl
  have hf : ('f').toNat = 102 := rfl
  have hF : ('F').toNat = 70 := rfl
  rcases h with ⟨-, hle⟩ | ⟨-, hle⟩ | ⟨-, hle⟩ <;> omega

/-- A text of bytes has only digits, or a first byte that is none. -/
theorem digits_or_other (text : Bytes) :
    (∀ b ∈ text, IsDigit b) ∨
      ∃ front byte rest, text = front ++ byte :: rest ∧ (∀ b ∈ front, IsDigit b) ∧
        ¬ IsDigit byte := by
  induction text with
  | nil => exact .inl nofun
  | cons b text ih =>
      by_cases hb : IsDigit b
      · rcases ih with hdigits | ⟨front, byte, rest, rfl, hfront, hbyte⟩
        · exact .inl (List.forall_mem_cons.mpr ⟨hb, hdigits⟩)
        · exact .inr ⟨b :: front, byte, rest, rfl, List.forall_mem_cons.mpr ⟨hb, hfront⟩, hbyte⟩
      · exact .inr ⟨[], b, text, rfl, nofun, hb⟩

/-- Reading stops at the first byte that is no digit, be it the first or the second of a pair. -/
theorem decodeFrom_of_other {front rest : Bytes} {byte : UInt8} (place : Nat)
    (heven : (front ++ byte :: rest).length % 2 = 0) (hfront : ∀ b ∈ front, IsDigit b)
    (hbyte : ¬ IsDigit byte) :
    decodeFrom place (front ++ byte :: rest) = .error (.badDigit byte (place + front.length)) := by
  have hnone := value?_eq_none_iff.mpr hbyte
  -- The digits in front are read in pairs, so they are taken away two at a time.
  induction front using List.twoStepInduction generalizing place with
  | nil =>
      -- The number of bytes is even, so the byte is the first of a pair.
      cases rest with
      | nil => cases heven
      | cons low rest =>
          rw [List.nil_append, decodeFrom, hnone]
          rfl
  | singleton high =>
      obtain ⟨v, hhigh⟩ := (hfront high List.mem_cons_self).exists_value?
      rw [List.singleton_append, decodeFrom, hhigh, hnone]
      rfl
  | cons_cons high low front ih _ =>
      obtain ⟨v, hhigh⟩ := (hfront high (by simp)).exists_value?
      obtain ⟨w, hlow⟩ := (hfront low (by simp)).exists_value?
      have heven' : (front ++ byte :: rest).length % 2 = 0 := by
        rw [List.cons_append, List.cons_append, List.length_cons, List.length_cons] at heven
        omega
      have hrest := ih (place + 2) heven' fun b hb => hfront b (by simp [hb])
      rw [List.cons_append, List.cons_append, decodeFrom_pair hhigh hlow, hrest, List.length_cons,
        List.length_cons, Nat.add_assoc, Nat.add_comm 2]
      rfl

/-- Digits are read as the bytes whose digits they are. -/
theorem decodeFrom_of_digits {cs : List Char} (place : Nat) (heven : cs.length % 2 = 0)
    (hascii : ∀ c ∈ cs, c.toNat < 128) (hdigits : ∀ c ∈ cs, IsDigit c.toUInt8) :
    ∃ bs, decodeFrom place (cs.map Char.toUInt8) = .ok bs ∧ chars bs = cs.map Char.toLower := by
  induction cs using List.twoStepInduction generalizing place with
  | nil => exact ⟨[], rfl, rfl⟩
  | singleton c => cases heven
  | cons_cons high low cs ih _ =>
      obtain ⟨m, hm, hhigh, hm'⟩ :=
        value?_of_isDigit (hascii high (by simp)) (hdigits high (by simp))
      obtain ⟨n, hn, hlow, hn'⟩ := value?_of_isDigit (hascii low (by simp)) (hdigits low (by simp))
      have heven' : cs.length % 2 = 0 := by
        rw [List.length_cons, List.length_cons] at heven
        omega
      obtain ⟨bs, hread, hchars⟩ := ih (place + 2) heven'
        (fun c hc => hascii c (by simp [hc])) fun c hc => hdigits c (by simp [hc])
      refine ⟨(UInt8.ofNat m * 16 + UInt8.ofNat n) :: bs, ?_, ?_⟩
      · rw [List.map_cons, List.map_cons, decodeFrom_pair hhigh hlow, hread]
        rfl
      · rw [chars] at hchars
        rw [chars, List.flatMap_cons, ofByte_of_halves hm hn, hm', hn', hchars]
        rfl

/-- The character that a byte stands for says which byte it is. -/
theorem charOfByte_inj {b b' : UInt8} (h : Char.ofNat b.toNat = Char.ofNat b'.toNat) : b = b' := by
  have hnat : ∀ b : UInt8, (Char.ofNat b.toNat).toNat = b.toNat :=
    fun b => Bytes.forall_byte (by decide +kernel) b
  rw [← UInt8.toNat_inj, ← hnat b, ← hnat b', h]

/-- A message says which byte is no digit, and where it stands. -/
theorem Malformed.message_inj {cause cause' : Malformed} (h : cause.message = cause'.message) :
    cause = cause' := by
  have hchars := congrArg String.toList h
  cases cause with
  | oddLength =>
      cases cause' with
      | oddLength => rfl
      | badDigit _ _ =>
          unfold message at hchars
          simp at hchars
  | badDigit byte place =>
      cases cause' with
      | oddLength =>
          unfold message at hchars
          simp at hchars
      | badDigit byte' place' =>
          unfold message at hchars
          simp only [String.toList_append, List.append_assoc] at hchars
          -- The citation ends where the next words begin, whatever is cited.
          obtain ⟨hchar, hrest⟩ := Text.quoteChar_append_inj (List.append_cancel_left hchars)
          have hdigits : Decimal.chars place = Decimal.chars place' := by
            simpa [Decimal.toList_ofNat] using hrest
          rw [charOfByte_inj hchar, Decimal.chars_inj hdigits]

end Hex

/-! ### Script hashes -/

namespace ScriptHash

/-- The text is no script hash, for this reason. -/
def RefusedFor (text reason : String) : Prop :=
  ∃ cause, parse text = .error cause ∧ cause.reason = reason

variable {text : String}

/-- A text that is read is not refused. -/
theorem not_refusedFor_of_ok {h : ScriptHash} (hread : parse text = .ok h) (reason : String) :
    ¬ RefusedFor text reason := by
  rintro ⟨cause, hrefused, -⟩
  cases hread.symm.trans hrefused

/-- A text that is no text of digits is refused for that. -/
theorem parse_of_malformed {cause : Hex.Malformed}
    (h : Hex.decode text.toUTF8.toList = .error cause) : parse text = .error (.hex cause) := by
  rw [parse, h]

/-- An odd number of bytes is refused, whatever they are. -/
theorem refusedFor_of_odd (hodd : text.toUTF8.toList.length % 2 = 1) :
    RefusedFor text "invalid hex: Odd number of digits" := by
  refine ⟨.hex .oddLength, parse_of_malformed ?_, by decide +kernel⟩
  rw [Hex.decode, if_pos hodd]

/-- An even number of bytes is refused for the first of them that is no digit. -/
theorem refusedFor_of_other {front rest : Bytes} {byte : UInt8}
    (heven : text.toUTF8.toList.length % 2 = 0) (htext : text.toUTF8.toList = front ++ byte :: rest)
    (hfront : ∀ b ∈ front, Hex.IsDigit b) (hbyte : ¬ Hex.IsDigit byte) :
    RefusedFor text ("invalid hex: Invalid character " ++ Text.quoteChar (Char.ofNat byte.toNat)
      ++ " at position " ++ Decimal.ofNat front.length) := by
  refine ⟨.hex (.badDigit byte front.length), parse_of_malformed ?_, ?_⟩
  · rw [Hex.decode, if_neg (by omega), htext]
    rw [htext] at heven
    have hread := Hex.decodeFrom_of_other 0 heven hfront hbyte
    rwa [Nat.zero_add] at hread
  · have hwords : "invalid hex: " ++ "Invalid character " = "invalid hex: Invalid character " := by
      decide +kernel
    show "invalid hex: " ++ ("Invalid character " ++ Text.quoteChar (Char.ofNat byte.toNat)
      ++ " at position " ++ Decimal.ofNat front.length) = _
    rw [← hwords]
    simp only [String.append_assoc]

/-- Digits are read, as half as many bytes, and come back in small letters. -/
theorem decode_of_digits (heven : text.toUTF8.toList.length % 2 = 0)
    (hdigits : ∀ b ∈ text.toUTF8.toList, Hex.IsDigit b) :
    ∃ bs, Hex.decode text.toUTF8.toList = .ok bs ∧
      2 * bs.length = text.toUTF8.toList.length ∧ Hex.encode bs = text.toLower := by
  -- Digits are from ASCII, so the bytes are the characters.
  have hascii : ∀ c ∈ text.toList, c.toNat < 128 :=
    fun c hc => toNat_lt_of_mem_toList (fun b hb => (hdigits b hb).toNat_lt) hc
  have hbytes : text.toUTF8.toList = text.toList.map Char.toUInt8 := by
    have h := toList_toUTF8_ofList hascii
    rwa [String.ofList_toList] at h
  rw [hbytes] at heven hdigits ⊢
  rw [List.length_map] at heven
  obtain ⟨bs, hread, hchars⟩ := Hex.decodeFrom_of_digits 0 heven hascii
    fun c hc => hdigits _ (List.mem_map_of_mem hc)
  refine ⟨bs, ?_, ?_, ?_⟩
  · rw [Hex.decode, List.length_map, if_neg (by omega)]
    exact hread
  · rw [← Hex.length_chars, hchars, List.length_map, List.length_map]
  · show String.ofList (Hex.chars bs) = String.map Char.toLower text
    rw [hchars, ← String.toList_map, String.ofList_toList]

/-- Digits are refused if they are not twice as many as a hash has bytes. -/
theorem refusedFor_of_length (heven : text.toUTF8.toList.length % 2 = 0)
    (hdigits : ∀ b ∈ text.toUTF8.toList, Hex.IsDigit b) (hlength : text.toUTF8.toList.length ≠ 40) :
    RefusedFor text
      ("must be 20 bytes, got " ++ Decimal.ofNat (text.toUTF8.toList.length / 2)) := by
  obtain ⟨bs, hread, hhalf, -⟩ := decode_of_digits heven hdigits
  have hbytes : bs.length = text.toUTF8.toList.length / 2 := by omega
  refine ⟨.length bs.length, ?_, ?_⟩
  · rw [parse, hread]
    dsimp only
    rw [ofBytes?, dif_neg (by omega)]
  · show "must be 20 bytes, got " ++ Decimal.ofNat bs.length = _
    rw [hbytes]

/-- Forty digits are read, and come back in small letters. -/
theorem exists_parse_of_digits (hlength : text.toUTF8.toList.length = 40)
    (hdigits : ∀ b ∈ text.toUTF8.toList, Hex.IsDigit b) :
    ∃ h, parse text = .ok h ∧ h.toHex = text.toLower := by
  obtain ⟨bs, hread, hhalf, hlower⟩ := decode_of_digits (by omega) hdigits
  have hbytes : bs.length = 20 := by omega
  refine ⟨⟨bs, hbytes⟩, ?_, hlower⟩
  rw [parse, hread]
  dsimp only
  rw [ofBytes?, dif_pos hbytes]

/-- Nothing but forty digits is accepted, as there is a reason against everything else. -/
theorem exists_parse_iff :
    (∃ h, parse text = .ok h) ↔
      text.toUTF8.toList.length = 40 ∧ ∀ b ∈ text.toUTF8.toList, Hex.IsDigit b := by
  constructor
  · rintro ⟨h, hread⟩
    have heven : text.toUTF8.toList.length % 2 = 0 := by
      by_contra hodd
      exact not_refusedFor_of_ok hread _ (refusedFor_of_odd (by omega))
    rcases Hex.digits_or_other text.toUTF8.toList with
      hdigits | ⟨front, byte, rest, htext, hfront, hbyte⟩
    · refine ⟨?_, hdigits⟩
      by_contra hlength
      exact not_refusedFor_of_ok hread _ (refusedFor_of_length heven hdigits hlength)
    · exact absurd (refusedFor_of_other heven htext hfront hbyte) (not_refusedFor_of_ok hread _)
  · rintro ⟨hlength, hdigits⟩
    obtain ⟨h, hread, -⟩ := exists_parse_of_digits hlength hdigits
    exact ⟨h, hread⟩

/-- What every text is read as, or refused for. Its length is counted in bytes.

* If the length is odd, that is the reason.
* If it is even and some byte is no digit, the reason names the first of these bytes, as the
  character with this number, and how many bytes stand before it.
* If there are only digits, for another number of bytes than 20, the reason names that number.
* Forty digits are read. What is read has these digits, in small letters.
* So the texts that are read are the texts of forty digits, and what is written for a hash is read
  as this hash. -/
theorem parse_decides (text : String) :
    let bytes := text.toUTF8.toList
    (bytes.length % 2 = 1 → RefusedFor text "invalid hex: Odd number of digits") ∧
    (∀ front byte rest, bytes.length % 2 = 0 → bytes = front ++ byte :: rest →
      (∀ b ∈ front, Hex.IsDigit b) → ¬ Hex.IsDigit byte →
      RefusedFor text ("invalid hex: Invalid character " ++ Text.quoteChar (Char.ofNat byte.toNat)
        ++ " at position " ++ Decimal.ofNat front.length)) ∧
    (bytes.length % 2 = 0 → (∀ b ∈ bytes, Hex.IsDigit b) → bytes.length ≠ 40 →
      RefusedFor text ("must be 20 bytes, got " ++ Decimal.ofNat (bytes.length / 2))) ∧
    (bytes.length = 40 → (∀ b ∈ bytes, Hex.IsDigit b) →
      ∃ h, parse text = .ok h ∧ h.toHex = text.toLower) ∧
    ((∃ h, parse text = .ok h) ↔ bytes.length = 40 ∧ ∀ b ∈ bytes, Hex.IsDigit b) ∧
    ∀ h : ScriptHash, parse h.toHex = .ok h := by
  intro bytes
  refine ⟨refusedFor_of_odd, ?_, refusedFor_of_length, exists_parse_of_digits, exists_parse_iff,
    parse_toHex⟩
  intro front byte rest heven hbytes hfront hbyte
  exact refusedFor_of_other heven hbytes hfront hbyte

/-- The first text is wrong in three ways, and its odd length counts. In the second an even number
of bytes holds a character of three, which is named by the first of them. The third has digits only,
and too few. The last is read, although half of its letters are capitals. -/
theorem parse_decides_four :
    let odd := "aé"
    let other := "a€"
    let short := "abCD"
    let mixed := "B472A266D0BD89C13706a4132ccfb16f7c3b9fcb"
    (odd.toUTF8.toList.length = 3 ∧ RefusedFor odd "invalid hex: Odd number of digits") ∧
    (other.toUTF8.toList = [0x61] ++ 0xE2 :: [0x82, 0xAC] ∧
      RefusedFor other "invalid hex: Invalid character 'â' at position 1") ∧
    (short.toUTF8.toList.length = 4 ∧ RefusedFor short "must be 20 bytes, got 2") ∧
    (∃ h, parse mixed = .ok h ∧ h.toHex = "b472a266d0bd89c13706a4132ccfb16f7c3b9fcb") := by
  intro odd other short mixed
  obtain ⟨hodd, -⟩ := parse_decides odd
  obtain ⟨-, hother, -⟩ := parse_decides other
  obtain ⟨-, -, hshort, -⟩ := parse_decides short
  obtain ⟨-, -, -, hmixed, -⟩ := parse_decides mixed
  refine ⟨⟨by decide +kernel, hodd (by decide +kernel)⟩, ?_, ?_, ?_⟩
  · have hbytes : other.toUTF8.toList = [0x61] ++ 0xE2 :: [0x82, 0xAC] := by decide +kernel
    have hvisible : Text.isInvisible (Char.ofNat 0xE2) = false :=
      Bool.eq_false_iff.mpr fun h => absurd ((Text.isInvisible_ofNat_iff (by decide)).mp h) (by decide)
    have hreason : "invalid hex: Invalid character " ++ Text.quoteChar (Char.ofNat 0xE2)
        ++ " at position " ++ Decimal.ofNat 1
        = "invalid hex: Invalid character 'â' at position 1" := by
      rw [Text.quoteChar_of_visible hvisible (by decide) (by decide)]
      decide +kernel
    have hfront : ∀ b ∈ [(0x61 : UInt8)], Hex.IsDigit b := List.forall_mem_singleton.mpr (by decide)
    rw [← hreason]
    exact ⟨hbytes, hother [0x61] 0xE2 [0x82, 0xAC] (by decide +kernel) hbytes hfront (by decide)⟩
  · have hlength : short.toUTF8.toList.length = 4 := by decide +kernel
    have hreason : "must be 20 bytes, got " ++ Decimal.ofNat (4 / 2)
        = "must be 20 bytes, got 2" := by
      decide +kernel
    rw [← hreason, ← hlength]
    exact ⟨rfl, hshort (by decide +kernel) (by decide +kernel) (by decide +kernel)⟩
  · have hletters : mixed.toLower = "b472a266d0bd89c13706a4132ccfb16f7c3b9fcb" := by decide +kernel
    rw [← hletters]
    exact hmixed (by decide +kernel) (by decide +kernel)

/-- A reason tells what was wrong: that the number of bytes is odd, or which byte is no digit and
where it stands, or how many bytes there are. -/
theorem Malformed.reason_inj {cause cause' : Malformed} (h : cause.reason = cause'.reason) :
    cause = cause' := by
  have hchars := congrArg String.toList h
  -- Reasons of different kinds differ in a letter. Within a kind the number and the byte show.
  cases cause with
  | length bytes =>
      cases cause' with
      | length bytes' =>
          unfold reason at hchars
          have hdigits : Decimal.chars bytes = Decimal.chars bytes' := by
            simpa [Decimal.toList_ofNat] using hchars
          rw [Decimal.chars_inj hdigits]
      | hex _ =>
          unfold reason at hchars
          simp at hchars
  | hex cause =>
      cases cause' with
      | length _ =>
          unfold reason at hchars
          simp at hchars
      | hex cause' =>
          unfold reason at h
          have hmessage : cause.message = cause'.message := by simpa using h
          rw [Hex.Malformed.message_inj hmessage]

end ScriptHash

end Countersign
