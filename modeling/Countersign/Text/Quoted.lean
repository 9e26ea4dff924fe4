import Countersign.Text.Invisible

/-!
# `Countersign.Text.Quoted`: text inside a message

A message that cites a string or a character from its input puts it between quotes and writes
what would not show, or would end the quotation, as an escape. Between single quotes the single
quote is escaped and the double quote is not, and the other way round.
-/

set_option autoImplicit false

namespace Countersign.Text

/-- The hexadecimal digits of a code point, without leading zeros. -/
def codePoint (c : Char) : List Char :=
  Nat.toDigits 16 c.toNat

/-- A character between quotation marks. -/
def escapeVisible (mark c : Char) : List Char :=
  match c with
  | '\x00' => ['\\', '0']
  | '\t' => ['\\', 't']
  | '\n' => ['\\', 'n']
  | '\r' => ['\\', 'r']
  | '\\' => ['\\', '\\']
  | c =>
    if c = mark then ['\\', c]
    else if isInvisible c then ['\\', 'u', '\x7b'] ++ codePoint c ++ ['\x7d']
    else [c]

/-- The characters that are written as a backslash and a letter, with that letter. -/
def shortEscapes (mark : Char) : List (Char × Char) :=
  [('\x00', '0'), ('\t', 't'), ('\n', 'n'), ('\r', 'r'), ('\\', '\\'), (mark, mark)]

/-- The three ways in which a character is written. -/
inductive Written (mark : Char) : Char → List Char → Prop
  | itself {c : Char} : c ≠ mark → c ≠ '\\' → isInvisible c = false → Written mark c [c]
  | short {c letter : Char} : (c, letter) ∈ shortEscapes mark → Written mark c ['\\', letter]
  | codePoint {c : Char} : isInvisible c = true →
      Written mark c ('\\' :: 'u' :: '\x7b' :: (codePoint c ++ ['\x7d']))

/-- Every character is written in one of the three ways. -/
theorem escapeVisible_written (mark c : Char) : Written mark c (escapeVisible mark c) := by
  unfold escapeVisible
  split
  · exact .short (by simp [shortEscapes])
  · exact .short (by simp [shortEscapes])
  · exact .short (by simp [shortEscapes])
  · exact .short (by simp [shortEscapes])
  · exact .short (by simp [shortEscapes])
  · next hbackslash =>
      split
      · next hmark =>
          rw [hmark]
          exact .short (by simp [shortEscapes])
      · next hmark =>
          split
          · next hinvisible => exact .codePoint hinvisible
          · next hvisible => exact .itself hmark hbackslash (Bool.eq_false_iff.mpr hvisible)

/-- A string between double quotes. -/
def quoteString (s : String) : String :=
  String.ofList ('"' :: (s.toList.flatMap (escapeVisible '"') ++ ['"']))

/-- A character between single quotes. -/
def quoteChar (c : Char) : String :=
  String.ofList ('\x27' :: (escapeVisible '\x27' c ++ ['\x27']))

/-- A character with a letter of its own is cited as a backslash and that letter. -/
theorem quoteChar_of_short {c letter : Char} (h : (c, letter) ∈ shortEscapes '\x27') :
    quoteChar c = String.ofList ['\x27', '\\', letter, '\x27'] := by
  simp only [shortEscapes, List.mem_cons, Prod.mk.injEq, List.not_mem_nil, or_false] at h
  rcases h with ⟨rfl, rfl⟩ | ⟨rfl, rfl⟩ | ⟨rfl, rfl⟩ | ⟨rfl, rfl⟩ | ⟨rfl, rfl⟩ | ⟨rfl, rfl⟩ <;> rfl

/-- A character that does not show, and has no letter of its own, is cited by its code point. -/
theorem quoteChar_of_invisible {c : Char} (hinvisible : isInvisible c = true)
    (hshort : ∀ letter, (c, letter) ∉ shortEscapes '\x27') :
    quoteChar c
      = String.ofList ('\x27' :: '\\' :: 'u' :: '\x7b' :: (codePoint c ++ ['\x7d', '\x27'])) := by
  have hwritten := escapeVisible_written '\x27' c
  rw [quoteChar]
  generalize escapeVisible '\x27' c = s at hwritten
  cases hwritten with
  | itself _ _ hvisible => exact absurd (hinvisible.symm.trans hvisible) (by decide)
  | short hletter => exact absurd hletter (hshort _)
  | codePoint _ => simp

/-- A character that shows, and would neither end the quotation nor begin an escape, is cited as it
stands. -/
theorem quoteChar_of_visible {c : Char} (hvisible : isInvisible c = false) (hmark : c ≠ '\x27')
    (hbackslash : c ≠ '\\') : quoteChar c = String.ofList ['\x27', c, '\x27'] := by
  have hwritten := escapeVisible_written '\x27' c
  rw [quoteChar]
  generalize escapeVisible '\x27' c = s at hwritten
  cases hwritten with
  | itself _ _ _ => rfl
  | short hletter =>
      -- The other characters with a letter are controls.
      simp only [shortEscapes, List.mem_cons, Prod.mk.injEq, List.not_mem_nil, or_false] at hletter
      rcases hletter with ⟨rfl, -⟩ | ⟨rfl, -⟩ | ⟨rfl, -⟩ | ⟨rfl, -⟩ | ⟨rfl, -⟩ | ⟨rfl, -⟩
      · cases hvisible
      · cases hvisible
      · cases hvisible
      · cases hvisible
      · exact absurd rfl hbackslash
      · exact absurd rfl hmark
  | codePoint hinvisible => exact absurd (hinvisible.symm.trans hvisible) (by decide)

/-- A name between backquotes, as it stands. -/
def tick (s : String) : String :=
  "\x60" ++ s ++ "\x60"

end Countersign.Text
