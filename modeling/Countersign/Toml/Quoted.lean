import Countersign.Toml.Scan

/-!
# `Countersign.Toml.Quoted`: strings and keys

A string stands between double quotes and may have escapes, or between single quotes and is taken
as it stands. Three quotes instead of one let it go over several lines: a line end right after
the opening quotes is dropped, every other counts as a line feed, and up to two quotes may stand
together anywhere, also right before the closing ones.
-/

set_option autoImplicit false

namespace Countersign.Toml

open Scan

/-- The value of a hexadecimal digit. -/
def hexValue? (c : Char) : Option Nat :=
  if '0' ≤ c ∧ c ≤ '9' then some (c.toNat - 48)
  else if 'a' ≤ c ∧ c ≤ 'f' then some (c.toNat - 87)
  else if 'A' ≤ c ∧ c ≤ 'F' then some (c.toNat - 55)
  else none

/-- The number that the next `count` hexadecimal digits write, after `n`. -/
def hexNumber : (count : Nat) → (n : Nat) → Scan Nat
  | 0, n => return n
  | count + 1, n => do
    match hexValue? (← satisfy fun _ => true) with
    | some d => hexNumber count (16 * n + d)
    | none => failure

/-- The character whose code point the next `count` hexadecimal digits write. -/
def codePoint (count : Nat) : Scan Char := do
  let n ← hexNumber count 0
  if n.isValidChar then return Char.ofNat n
  failure

/-- The character that is escaped, after the backslash. -/
def escaped : Scan Char := do
  match ← satisfy fun _ => true with
  | 'b' => return '\x08'
  | 't' => return '\t'
  | 'n' => return '\n'
  | 'f' => return '\x0c'
  | 'r' => return '\r'
  | '"' => return '"'
  | '\\' => return '\\'
  | 'u' => codePoint 4
  | 'U' => codePoint 8
  | _ => failure

/-- The rest of a string between double quotes on one line, which has `size` characters at
most. -/
def basicRest : (size : Nat) → Scan (List Char)
  | 0 => failure
  | size + 1 => do
    match ← satisfy fun _ => true with
    | '"' => return []
    | '\\' =>
      let c ← escaped
      return c :: (← basicRest size)
    | c =>
      if isPlain c then return c :: (← basicRest size)
      failure

/-- A string between double quotes on one line. -/
def basicString : Scan String := do
  char '"'
  return String.ofList (← basicRest (← remaining))

/-- A string between single quotes on one line. -/
def literalString : Scan String := do
  char '\x27'
  let cs ← takeWhile fun c => isPlain c && c != '\x27'
  char '\x27'
  return String.ofList cs

/-- A string of several lines, after the opening quotes. `content` takes a piece of it that is no
quote. Of a run of quotes the last three close the string. -/
def multiLineRest (quote : Char) (content : Scan (List Char)) : (size : Nat) → Scan (List Char)
  | 0 => failure
  | size + 1 => do
    let quotes ← takeWhile (· == quote)
    -- Three quotes close the string, and at most two in front of them are part of it.
    if 5 < quotes.length then failure
    else if 3 ≤ quotes.length then return quotes.drop 3
    else
      let piece ← content
      return quotes ++ piece ++ (← multiLineRest quote content size)

/-- A piece of a string of several lines between double quotes. A backslash at the end of a line
takes all blanks and line ends that follow away. -/
def basicContent : Scan (List Char) := do
  match ← peek? with
  | some '\\' =>
    char '\\'
    -- A backslash joins lines only if nothing but blanks stands between it and the end of its line.
    (do
      blanks
      newline
      joined (← remaining)
      return []) <|> (do return [← escaped])
  | some '\r' | some '\n' =>
    newline
    return ['\n']
  | _ => return [← satisfy isPlain]
where
  /-- Takes further blanks and line ends. -/
  joined : Nat → Scan Unit
    | 0 => return ()
    | size + 1 => do
      blanks
      match ← peek? with
      | some '\n' | some '\r' =>
        match ← optional newline with
        | some () => joined size
        | none => return ()
      | _ => return ()

/-- A piece of a string of several lines between single quotes. -/
def literalContent : Scan (List Char) := do
  match ← peek? with
  | some '\r' | some '\n' =>
    newline
    return ['\n']
  | _ => return [← satisfy isPlain]

/-- A string of several lines. -/
def multiLine (quote : Char) (content : Scan (List Char)) : Scan String := do
  char quote
  char quote
  char quote
  let _ ← optional newline
  return String.ofList (← multiLineRest quote content (← remaining))

/-- A string, of any form. -/
def string : Scan String :=
  multiLine '"' basicContent <|> basicString <|> multiLine '\x27' literalContent <|> literalString

/-- Whether a key with this character in it can stand without quotes. -/
def isBare (c : Char) : Bool :=
  c.isAlphanum || c = '_' || c = '-'

/-- One part of a key. -/
def keyPart : Scan String := do
  match ← peek? with
  | some '"' => basicString
  | some '\x27' => literalString
  | _ =>
    let cs ← takeWhile isBare
    if cs = [] then failure
    return String.ofList cs

/-- The parts of a key, which points separate. There are `most` of them at most. -/
def keyParts : (most : Nat) → Scan (List String)
  | 0 => failure
  | most + 1 => do
    blanks
    let part ← keyPart
    blanks
    match ← peek? with
    | some '.' =>
      char '.'
      return part :: (← keyParts most)
    | _ => return [part]

/-- A key. Keys of 80 parts or more are refused, as is any deeper nesting. -/
def key : Scan (List String) :=
  keyParts 79

end Countersign.Toml
