import Countersign.Json.Reader
import Countersign.Json.Value

/-!
# `Countersign.Proofs.Json.Quoted`: strings are read as they were written

A string is written character by character, some of them escaped, and read piece by piece. `piece`
says which piece a character is read as, and `scanString?_escape` that each character is read on its
own: what it is escaped as ends where the next one begins. So the closing quote is found wherever
there are quotes and backslashes in the string (`scanString?_escaped`), and the pieces make the
string again (`chars?_pieces`).
-/

set_option autoImplicit false

namespace Countersign.Json

/-- The characters that are escaped by a letter. -/
def hasLetter (c : Char) : Bool :=
  c = '\x08' || c = '\x0c' || c = '\n' || c = '\r' || c = '\t'

/-- The piece that a character is read as. Control characters without a letter are written as their
sixteen bits. -/
def piece (c : Char) : Piece :=
  if c.toNat < 32 ∧ hasLetter c = false then .unit c.toNat else .char c

/-- The pieces that a string is read as. -/
def pieces (s : String) : List Piece :=
  s.toList.map piece

/-! ### The pieces make the string -/

/-- Bits that are not half of a pair are a character of their own. -/
theorem chars?_unit_cons {bits : Nat} (h : bits < 0xd800) (ps : List Piece) :
    Piece.chars? (.unit bits :: ps) = (Piece.chars? ps).map (Char.ofNat bits :: ·) := by
  -- Neither half of a pair is that small, so it does not matter what comes next.
  have hhigh : ¬ (0xd800 ≤ bits ∧ bits < 0xdc00) := by omega
  have hlow : ¬ (0xdc00 ≤ bits ∧ bits < 0xe000) := by omega
  have hpair : ¬ (0xd800 ≤ bits ∧ bits < 0xe000) := by omega
  cases ps with
  | nil => exact if_neg hpair
  | cons p ps =>
      cases p with
      | char c => exact if_neg hpair
      | unit low => rw [Piece.chars?, if_neg hhigh, if_neg hlow]

/-- The pieces of characters make these characters. -/
theorem chars?_pieces (cs : List Char) : Piece.chars? (cs.map piece) = some cs := by
  induction cs with
  | nil => rfl
  | cons c cs ih =>
      rw [List.map_cons, piece]
      -- Only what has no letter was written as bits, and these are below those of any half of a
      -- pair.
      split
      · rename_i hcontrol
        rw [chars?_unit_cons (by omega), ih, Char.ofNat_toNat]
        rfl
      · rw [Piece.chars?, ih]
        rfl

/-- The pieces of a string make the string. -/
theorem text_pieces (s : String) : Reader.text (pieces s) = pure s := by
  rw [Reader.text, pieces, chars?_pieces]
  dsimp only
  rw [String.ofList_toList]

/-- No two strings have the same pieces. -/
theorem pieces_inj {s t : String} (h : pieces s = pieces t) : s = t := by
  have hread := congrArg Piece.chars? h
  rw [pieces, pieces, chars?_pieces, chars?_pieces] at hread
  exact String.toList_inj.mp (Option.some.inj hread)

/-! ### The string is read as its pieces -/

open Token

/-- A digit is read as the number that it was written for. -/
theorem hexValue?_digit {n : Nat} (h : n < 16) : hexValue? (Hex.digit n) = some n := by
  have key : ∀ n < 16, hexValue? (Hex.digit n) = some n := by decide
  exact key n h

/-- Four digits that begin with two zeros write a byte. -/
theorem hex4?_ofByte {n : Nat} (h : n < 256) :
    hex4? '0' '0' (Hex.digit (n / 16)) (Hex.digit (n % 16)) = some n := by
  have hzero : hexValue? '0' = some 0 := by decide
  have hhigh := hexValue?_digit (n := n / 16) (by omega)
  have hlow := hexValue?_digit (n := n % 16) (by omega)
  rw [hex4?, hzero, hhigh, hlow]
  show some ((0 * 16 + 0) * 256 + n / 16 * 16 + n % 16) = some n
  congr 1
  omega

/-- Puts a piece in front of those that were read. -/
def before (p : Piece) : List Piece × List Char → List Piece × List Char
  | (ps, rest) => (p :: ps, rest)

/-- An escape by a letter is read as the character that it stands for. -/
theorem scanString?_letter {letter c : Char} (h : unescape? letter = some c) (rest : List Char) :
    scanString? ('\\' :: letter :: rest) = (scanString? rest).map (before (.char c)) := by
  have hletter : letter ≠ 'u' := by
    rintro rfl
    cases h
  rw [scanString?, h]
  · cases scanString? rest <;> rfl
  · exact fun _ _ _ _ _ hu _ => hletter hu

/-- An escape by four digits is read as their bits. -/
theorem scanString?_bits {n : Nat} (h : n < 256) (rest : List Char) :
    scanString? ('\\' :: 'u' :: '0' :: '0' :: Hex.digit (n / 16) :: Hex.digit (n % 16) :: rest)
      = (scanString? rest).map (before (.unit n)) := by
  rw [scanString?, hex4?_ofByte h]
  cases scanString? rest <;> rfl

/-- Any other character stands for itself. -/
theorem scanString?_plain {c : Char} (hquote : c ≠ '"') (hslash : c ≠ '\\') (h : ¬ c.toNat < 32)
    (rest : List Char) : scanString? (c :: rest) = (scanString? rest).map (before (.char c)) := by
  rw [scanString?, if_neg h]
  · cases scanString? rest <;> rfl
  · exact hquote
  · exact fun _ _ _ _ _ hc _ => hslash hc
  · exact fun _ _ hc _ => hslash hc

/-- A character is read as its piece, whatever follows. -/
theorem scanString?_escape (c : Char) (rest : List Char) :
    scanString? (escape c ++ rest) = (scanString? rest).map (before (piece c)) := by
  rw [escape.eq_def]
  split
  -- Quote, backslash and the characters with a letter of their own.
  iterate 7 exact scanString?_letter rfl rest
  · rename_i hquote hslash hb hf hn hr ht
    have hletter : hasLetter c = false := by
      simp only [hasLetter, Bool.or_eq_false_iff, decide_eq_false_iff_not]
      exact ⟨⟨⟨⟨hb, hf⟩, hn⟩, hr⟩, ht⟩
    split
    · rename_i hcontrol
      have hbyte : (UInt8.ofNat c.toNat).toNat = c.toNat :=
        UInt8.toNat_ofNat_of_lt' (show c.toNat < 256 from by omega)
      rw [piece, if_pos ⟨hcontrol, hletter⟩, Hex.ofByte, hbyte]
      exact scanString?_bits (by omega) rest
    · rename_i hcontrol
      rw [piece, if_neg fun hpiece => hcontrol hpiece.1]
      exact scanString?_plain hquote hslash hcontrol rest

/-- A string is read up to the quote that closes it, and not to one that is part of it. -/
theorem scanString?_escaped (cs rest : List Char) :
    scanString? (cs.flatMap escape ++ '"' :: rest) = some (cs.map piece, rest) := by
  induction cs with
  | nil => rfl
  | cons c cs ih =>
      rw [List.flatMap_cons, List.append_assoc, scanString?_escape, ih]
      rfl

end Countersign.Json
