import Countersign.Schema.Mismatch
import Countersign.Toml.Quoted

/-!
# `Countersign.Toml.Scalar`: numbers, truth values and times

Whole numbers have 64 bits and a sign; fractions are rounded to the nearest binary fraction. A
fraction above all binary fractions is refused. Times are checked, but what they say is of no
interest here, so a time is read as a map of its parts.
-/

set_option autoImplicit false

namespace Countersign.Toml

open Scan

/-- Further digits, each of which may have one underscore in front, and what follows them. -/
def moreDigits (p : Char → Bool) : List Char → List Char × List Char
  | '_' :: c :: cs =>
    if p c then
      let (ds, rest) := moreDigits p cs
      (c :: ds, rest)
    else ([], '_' :: c :: cs)
  | c :: cs =>
    if p c then
      let (ds, rest) := moreDigits p cs
      (c :: ds, rest)
    else ([], c :: cs)
  | [] => ([], [])

/-- Digits, with single underscores between them. -/
def digits (p : Char → Bool) : Scan (List Char) := do
  let d ← satisfy p
  let (ds, rest) := moreDigits p (← get)
  set rest
  return d :: ds

/-- A sign, and whether it is a minus. -/
def sign : Scan Bool := do
  match ← peek? with
  | some '-' =>
    char '-'
    return true
  | some '+' =>
    char '+'
    return false
  | _ => return false

/-- The digits of a decimal number. Only zero itself begins with a zero. -/
def decimalDigits : Scan (List Char) := do
  match ← peek? with
  | some '0' =>
    char '0'
    return ['0']
  | _ => digits Char.isDigit

/-- The number that digits write in a base. -/
def valueIn (base : Nat) (ds : List Char) : Nat :=
  ds.foldl (fun n c => base * n + (hexValue? c).getD 0) 0

/-- A number in another base, after the mark for it. -/
def based (mark : String) (base : Nat) : Scan Int := do
  text mark
  let ds ← digits fun c => (hexValue? c).any (· < base)
  return valueIn base ds

/-- A decimal number. -/
def decimal : Scan Int := do
  let negative ← sign
  let ds ← decimalDigits
  let n : Int := valueIn 10 ds
  return if negative then -n else n

/-- A whole number. -/
def integer : Scan Found := do
  -- The marks are tried first, as their zero would be taken for a decimal number.
  let i ← based "0x" 16 <|> based "0o" 8 <|> based "0b" 2 <|> decimal
  if -0x8000000000000000 ≤ i ∧ i < 0x8000000000000000 then return .integer i
  failure

/-- The binary fraction nearest to digits times a power of ten. -/
def nearest (ds : List Char) (power : Int) : Float :=
  let n := valueIn 10 ds
  if n = 0 then 0
  else
    let magnitude := (Decimal.chars n).length + power
    if 400 < magnitude then 1 / 0
    else if magnitude < -400 then 0
    else Float.ofScientific n (power < 0) power.natAbs

/-- The digits after a point. -/
def fractionDigits : Scan (List Char) := do
  char '.'
  digits Char.isDigit

/-- A power of ten. -/
def powerOfTen : Scan Int := do
  let _ ← satisfy fun c => c = 'e' || c = 'E'
  let negative ← sign
  let ds ← digits Char.isDigit
  let n : Int := valueIn 10 ds
  return if negative then -n else n

/-- A number with a point or a power of ten. -/
def fraction : Scan Found := do
  let negative ← sign
  let whole ← decimalDigits
  let after ← optional fractionDigits
  let power ← optional powerOfTen
  if after.isNone ∧ power.isNone then failure
  let places := (after.getD []).length
  let x := nearest (whole ++ after.getD []) (power.getD 0 - places)
  -- What is too large is refused, but only without a minus in front of it.
  if negative then return .fraction (-x)
  if x.isInf then failure
  return .fraction x

/-- Infinity, or what is no number. -/
def special : Scan Found := do
  let negative ← sign
  let x : Float ← (do text "inf"; pure (1 / 0)) <|> (do text "nan"; pure (0 / 0))
  return .fraction (if negative then -x else x)

/-- A truth value. -/
def truth : Scan Found :=
  (do text "true"; pure (.bool true)) <|> (do text "false"; pure (.bool false))

/-! ### Times -/

/-- A number of exactly `count` digits, after `n`. -/
def fixedNumber : (count : Nat) → (n : Nat) → Scan Nat
  | 0, n => return n
  | count + 1, n => do
    let d ← satisfy Char.isDigit
    fixedNumber count (10 * n + (d.toNat - 48))

/-- A number of two digits within bounds. -/
def twoDigits (least greatest : Nat) : Scan Unit := do
  let n ← fixedNumber 2 0
  unless least ≤ n ∧ n ≤ greatest do failure

/-- How many days a month has. -/
def daysIn (year month : Nat) : Nat :=
  let leap := year % 4 = 0 ∧ (year % 100 ≠ 0 ∨ year % 400 = 0)
  if month = 2 then if leap then 29 else 28
  else if month = 4 ∨ month = 6 ∨ month = 9 ∨ month = 11 then 30
  else 31

/-- A day of the calendar. -/
def date : Scan Unit := do
  let year ← fixedNumber 4 0
  char '-'
  let month ← fixedNumber 2 0
  unless 1 ≤ month ∧ month ≤ 12 do failure
  char '-'
  twoDigits 1 (daysIn year month)

/-- A time of the day. A minute may have a leap second. -/
def timeOfDay : Scan Unit := do
  twoDigits 0 23
  char ':'
  twoDigits 0 59
  char ':'
  twoDigits 0 60
  let _ ← optional (do
    char '.'
    let ds ← takeWhile Char.isDigit
    if ds = [] then failure)

/-- How far a time is from universal time. -/
def offset : Scan Unit :=
  (do let _ ← satisfy fun c => c = 'Z' || c = 'z') <|> (do
    let _ ← satisfy fun c => c = '+' || c = '-'
    twoDigits 0 23
    char ':'
    twoDigits 0 59)

/-- A day, a time of the day, or both. -/
def time : Scan Found := do
  (do
    date
    let _ ← optional (do
      let _ ← satisfy fun c => c = 'T' || c = 't' || c = ' '
      timeOfDay
      let _ ← optional offset)) <|> timeOfDay
  return .map

/-- A value that has no values inside. -/
def scalar : Scan Found :=
  -- A day begins like a whole number, and so does a fraction, so the longer forms are tried first.
  (do return .string (← string)) <|> truth <|> time <|> special <|> fraction <|> integer

end Countersign.Toml
