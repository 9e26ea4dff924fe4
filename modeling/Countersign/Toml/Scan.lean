/-!
# `Countersign.Toml.Scan`: taking a document apart from the front

A scan takes characters off the front of what is left and answers, or fails. Here are the scans
for single characters, blanks, line ends and comments. A carriage return counts only as part of a
line end, and control characters are not allowed anywhere, not even in comments.
-/

set_option autoImplicit false

namespace Countersign.Toml

/-- Takes characters off the front, and fails if they are not the right ones. -/
abbrev Scan := StateT (List Char) Option

namespace Scan

/-- The next character, which stays. -/
def peek? : Scan (Option Char) := do
  return (← get).head?

/-- Takes one character of a class. -/
def satisfy (p : Char → Bool) : Scan Char := do
  match ← get with
  | c :: cs =>
    if p c then
      set cs
      return c
    failure
  | [] => failure

/-- Takes this character. -/
def char (c : Char) : Scan Unit := do
  let _ ← satisfy (· == c)

/-- Takes this text. -/
def text (s : String) : Scan Unit :=
  s.toList.forM char

/-- Takes all the characters of a class that stand at the front. -/
def takeWhile (p : Char → Bool) : Scan (List Char) := do
  let cs ← get
  set (cs.dropWhile p)
  return cs.takeWhile p

/-- How many characters are left. -/
def remaining : Scan Nat := do
  return (← get).length

end Scan

open Scan

/-- Blanks within a line. -/
def isBlank (c : Char) : Bool :=
  c = ' ' || c = '\t'

/-- The characters that may stand in a comment or in a string without being escaped. -/
def isPlain (c : Char) : Bool :=
  c = '\t' || (32 ≤ c.toNat && c.toNat ≠ 127)

/-- Skips blanks within a line. -/
def blanks : Scan Unit := do
  let _ ← takeWhile isBlank

/-- Takes the end of a line. -/
def newline : Scan Unit := do
  let _ ← optional (char '\r')
  char '\n'

/-- Takes a comment, up to the end of the line. -/
def comment : Scan Unit := do
  char '#'
  let _ ← takeWhile isPlain

/-- Takes what may follow on a line, and its end. -/
def lineEnd : Scan Unit := do
  blanks
  let _ ← optional comment
  match ← peek? with
  | none => return ()
  | some _ => newline

/-- Skips blanks, line ends and comments, `size` of them at most. -/
def gapWithin : (size : Nat) → Scan Unit
  | 0 => return ()
  | size + 1 => do
    blanks
    match ← peek? with
    | some '#' =>
      comment
      gapWithin size
    | some '\n' | some '\r' =>
      newline
      gapWithin size
    | _ => return ()

/-- Skips blanks, line ends and comments. -/
def gap : Scan Unit := do
  gapWithin (← remaining)

end Countersign.Toml
