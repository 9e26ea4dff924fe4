import Countersign.Json.Numeral

/-!
# `Countersign.Json.Token`: the words of a JSON text

A text is cut into words from the front. Where that fails, the word `bad` stands for all the rest,
so whoever reads the words in order finds out about it only on getting there: a mistake in what a
text says counts before a mistake in how it is written, if it comes first.

Strings and numbers are kept as they are written, for some of them are skipped and then need not
make sense.
-/

set_option autoImplicit false

namespace Countersign.Json

/-- A part of a string: a character, or the sixteen bits that `\u` and four digits write. -/
inductive Piece where
  | char (c : Char)
  | unit (bits : Nat)
  deriving DecidableEq, Repr

/-- The characters that pieces make. The two halves of a pair of surrogates have to follow each
other, and neither may stand alone. -/
def Piece.chars? : List Piece → Option (List Char)
  | [] => some []
  | .char c :: ps => (chars? ps).map (c :: ·)
  -- The only pieces that are read together are two halves of one character.
  | .unit high :: .unit low :: ps =>
    if 0xd800 ≤ high ∧ high < 0xdc00 then
      if 0xdc00 ≤ low ∧ low < 0xe000 then
        (chars? ps).map (Char.ofNat (0x10000 + (high - 0xd800) * 0x400 + (low - 0xdc00)) :: ·)
      else none
    else if 0xdc00 ≤ high ∧ high < 0xe000 then none
    else (chars? (.unit low :: ps)).map (Char.ofNat high :: ·)
  | .unit bits :: ps =>
    if 0xd800 ≤ bits ∧ bits < 0xe000 then none else (chars? ps).map (Char.ofNat bits :: ·)

/-- A word of a JSON text. -/
inductive Token where
  | openObject
  | closeObject
  | openArray
  | closeArray
  | comma
  | colon
  | null
  | bool (b : Bool)
  | number (n : Numeral)
  | string (pieces : List Piece)
  /-- Here the text stops being made of words. -/
  | bad
  deriving DecidableEq, Repr

namespace Token

/-- Whether a character may stand between words. -/
def isBlank (c : Char) : Bool :=
  c = ' ' || c = '\n' || c = '\t' || c = '\r'

/-- The value of a hexadecimal digit. -/
def hexValue? (c : Char) : Option Nat :=
  if '0' ≤ c ∧ c ≤ '9' then some (c.toNat - 48)
  else if 'a' ≤ c ∧ c ≤ 'f' then some (c.toNat - 87)
  else if 'A' ≤ c ∧ c ≤ 'F' then some (c.toNat - 55)
  else none

/-- The number that four hexadecimal digits write. -/
def hex4? (a b c d : Char) : Option Nat := do
  return ((← hexValue? a) * 16 + (← hexValue? b)) * 256 + (← hexValue? c) * 16 + (← hexValue? d)

/-- The character that a backslash and this one stand for. -/
def unescape? : Char → Option Char
  | '"' => some '"'
  | '\\' => some '\\'
  | '/' => some '/'
  | 'b' => some '\x08'
  | 'f' => some '\x0c'
  | 'n' => some '\n'
  | 'r' => some '\r'
  | 't' => some '\t'
  | _ => none

/-- The pieces of a string up to its closing quote, and what follows that. -/
def scanString? : List Char → Option (List Piece × List Char)
  | [] => none
  | '"' :: cs => some ([], cs)
  | '\\' :: 'u' :: a :: b :: c :: d :: cs => do
    let bits ← hex4? a b c d
    let (ps, rest) ← scanString? cs
    return (.unit bits :: ps, rest)
  | '\\' :: c :: cs => do
    let c ← unescape? c
    let (ps, rest) ← scanString? cs
    return (.char c :: ps, rest)
  | c :: cs =>
    if c.toNat < 32 then none
    else do
      let (ps, rest) ← scanString? cs
      return (.char c :: ps, rest)

/-- What follows a text, if it is there. -/
def after? : (expected : List Char) → List Char → Option (List Char)
  | [], cs => some cs
  | e :: es, c :: cs => if e = c then after? es cs else none
  | _ :: _, [] => none

/-- The word that begins with `c`, and what follows it. -/
def next? (c : Char) (cs : List Char) : Option (Token × List Char) :=
  match c with
  | '\x7b' => some (.openObject, cs)
  | '\x7d' => some (.closeObject, cs)
  | '[' => some (.openArray, cs)
  | ']' => some (.closeArray, cs)
  | ',' => some (.comma, cs)
  | ':' => some (.colon, cs)
  | 'n' => (after? ['u', 'l', 'l'] cs).map (.null, ·)
  | 't' => (after? ['r', 'u', 'e'] cs).map (.bool true, ·)
  | 'f' => (after? ['a', 'l', 's', 'e'] cs).map (.bool false, ·)
  | '"' => (scanString? cs).map fun (ps, rest) => (.string ps, rest)
  | '-' => (Numeral.scanUnsigned? true cs).map fun (n, rest) => (.number n, rest)
  | c => (Numeral.scanUnsigned? false (c :: cs)).map fun (n, rest) => (.number n, rest)

/-- The words of a text. Every word is at least a character long, so there are no more of them
than `size`, the length of the text. -/
def scanWithin : (size : Nat) → List Char → List Token
  | _, [] => []
  | 0, _ :: _ => [.bad]
  | size + 1, c :: cs =>
    if isBlank c then scanWithin size cs
    else
      match next? c cs with
      | none => [.bad]
      | some (token, rest) => token :: scanWithin size rest

/-- The words of a text. -/
def scan (text : String) : List Token :=
  let cs := text.toList
  scanWithin cs.length cs

end Token

end Countersign.Json
