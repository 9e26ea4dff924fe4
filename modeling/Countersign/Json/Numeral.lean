import Countersign.Decimal.Natural

/-!
# `Countersign.Json.Numeral`: numbers as JSON writes them

A numeral is kept as its digits; what number it is, is found out when somebody asks. A whole
number that fits 64 bits is exact. Any other is a binary fraction got by one multiplication or
division of its leading digits by a power of ten, which may be off by the last bit, and has to be
finite.
-/

set_option autoImplicit false

namespace Countersign.Json

/-- A number as it is written. -/
structure Numeral where
  negative : Bool
  /-- The digits before the point. -/
  whole : List Char
  /-- The digits after the point, if there is one. -/
  fraction : List Char
  /-- Whether the power of ten is negative, and its digits. -/
  exponent : Option (Bool × List Char)
  deriving DecidableEq, Repr

namespace Numeral

/-- Leading digits, and what follows them. -/
def digits (cs : List Char) : List Char × List Char :=
  (cs.takeWhile Char.isDigit, cs.dropWhile Char.isDigit)

/-- The digits after a point, and what follows. Where there is no point there are none. -/
def scanFraction? : List Char → Option (List Char × List Char)
  | '.' :: cs => if (digits cs).1 = [] then none else some (digits cs)
  | cs => some ([], cs)

/-- The power of ten, and what follows. -/
def scanExponent? : List Char → Option (Option (Bool × List Char) × List Char)
  | c :: cs =>
    if c = 'e' ∨ c = 'E' then
      let (negative, cs) := match cs with
        | '-' :: cs => (true, cs)
        | '+' :: cs => (false, cs)
        | cs => (false, cs)
      if (digits cs).1 = [] then none else some (some (negative, (digits cs).1), (digits cs).2)
    else some (none, c :: cs)
  | [] => some (none, [])

/-- A numeral without its sign, and what follows it. A zero in front of other digits is not
allowed. -/
def scanUnsigned? (negative : Bool) (cs : List Char) : Option (Numeral × List Char) := do
  let (whole, cs) := digits cs
  if whole = [] ∨ (whole.head? = some '0' ∧ 1 < whole.length) then none
  else
    let (fraction, cs) ← scanFraction? cs
    let (exponent, cs) ← scanExponent? cs
    return (⟨negative, whole, fraction, exponent⟩, cs)

/-- The digits of a number that are taken while it fits 64 bits, and the digits that are left. -/
def accumulate (n : Nat) : List Char → Nat × List Char
  | [] => (n, [])
  | d :: ds =>
    let next := 10 * n + (d.toNat - 48)
    if next < UInt64.size then accumulate next ds else (n, d :: ds)

/-- A power of ten, correctly rounded. -/
def tenTo (k : Nat) : Float :=
  Float.ofScientific 1 false k

/-- `x * 10 ^ k`, unless that is infinite. Powers beyond 10³⁰⁸ are no binary fractions, so smaller
results are reached in several divisions. -/
def scale (x : Float) (k : Int) : Option Float :=
  if 0 ≤ k then
    if k ≤ 308 then
      let y := x * tenTo k.toNat
      if y.isInf then none else some y
    else if x == 0 then some x else none
  else if -308 ≤ k then some (x / tenTo (-k).toNat)
  else if x == 0 then some x
  else scale (x / tenTo 308) (k + 308)
termination_by (-k).toNat

end Numeral

/-- What number a numeral is. -/
inductive Number where
  | integer (i : Int)
  | fraction (x : Float)

/-- A binary fraction with its sign. -/
def Number.signed (negative : Bool) (x : Float) : Number :=
  .fraction (if negative then -x else x)

/-- The number that a numeral stands for. There is none if it is too large. Negative zero is a
fraction, because no whole number is it. -/
def Numeral.number? (n : Numeral) : Option Number :=
  let (significand, wholeLeft) := accumulate 0 n.whole
  if wholeLeft = [] ∧ n.fraction = [] ∧ n.exponent = none then
    if n.negative then
      -- The least whole number has an opposite that is no whole number of 64 bits.
      if 0 < significand ∧ significand ≤ 0x8000000000000000 then some (.integer (-(significand : Int)))
      else some (.signed true (UInt64.ofNat significand).toFloat)
    else some (.integer significand)
  else
    let (significand, fractionLeft) := accumulate significand n.fraction
    -- A digit that is used behind the point lowers the power, and one that is left in front of it
    -- raises it.
    let used := n.fraction.length - fractionLeft.length
    let power : Int := wholeLeft.length - used
    let x := (UInt64.ofNat significand).toFloat
    match n.exponent with
    | none => (scale x power).map (Number.signed n.negative)
    | some (negativePower, ds) =>
      let e := Decimal.value ds
      if e < 0x80000000 then
        (scale x (if negativePower then power - e else power + e)).map (Number.signed n.negative)
      -- The power is too large to be counted with, so the number is zero or too large itself.
      else if significand = 0 ∨ negativePower then some (.signed n.negative 0)
      else none

end Countersign.Json
