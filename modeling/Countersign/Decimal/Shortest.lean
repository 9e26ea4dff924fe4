import Countersign.Decimal.Natural

/-!
# `Countersign.Decimal.Shortest`: binary fractions as decimal text

Many decimal fractions read back as the same 64-bit binary fraction. The one that is written has
as few digits as possible, and is the nearest of those with that few; which one is taken if two
are equally near is up to the style of writing.

The search is by exact arithmetic on natural numbers. Decimal fractions whose last digit has the
weight 10ᵏ form a grid; from the coarsest grid on, the two points next to the value are tried, and
the first grid with a point that reads back as the value gives the digits.
-/

set_option autoImplicit false

namespace Countersign.Decimal

/-- Which of two decimal fractions is taken if they are equally near. -/
inductive Tie where
  /-- The greater one. -/
  | greater
  /-- The one whose last digit is even. -/
  | even
  deriving DecidableEq, Repr

/-- Whether the greater of two neighbours is taken in a tie, given the factor of the less. -/
def Tie.goesUp (tie : Tie) (below : Nat) : Bool :=
  match tie with
  | .greater => true
  | .even => below % 2 = 1

/-- A positive binary fraction `mantissa * 2 ^ exponent`. -/
structure Binary where
  mantissa : Nat
  exponent : Int
  /-- Whether the next smaller fraction is only half as far away as the next greater one. -/
  atPowerOfTwo : Bool

/-- The fraction of a 64-bit binary fraction takes up the lowest 52 bits. -/
def fractionUnits : Nat := 0x10000000000000

/-- The sign of a 64-bit binary fraction is the highest bit. -/
def signUnit : Nat := 0x8000000000000000

/-- The finite positive fraction with these bits, the sign left aside. -/
def Binary.ofBits (bits : Nat) : Binary :=
  let fraction : Nat := bits % fractionUnits
  let biased : Nat := bits / fractionUnits % 2048
  if biased = 0 then ⟨fraction, -1074, false⟩
  else ⟨fractionUnits + fraction, (biased : Int) - 1075, fraction = 0 ∧ 1 < biased⟩

/-- The point of the grid of `10 ^ k`, as a factor of `10 ^ k`, that is nearest to the fraction
among those that read back as the fraction. -/
def Binary.gridPoint? (b : Binary) (tie : Tie) (k : Int) : Option Nat :=
  -- Everything is measured in quarters of the distance to the next greater fraction.
  let q := b.exponent - 2
  let unit := Nat.pow 2 q.toNat * Nat.pow 10 (-k).toNat
  let step := Nat.pow 10 k.toNat * Nat.pow 2 (-q).toNat
  let value := 4 * b.mantissa * unit
  let low := (4 * b.mantissa - (if b.atPowerOfTwo then 1 else 2)) * unit
  let high := (4 * b.mantissa + 2) * unit
  let readsBack (d : Nat) : Bool :=
    if b.mantissa % 2 = 0 then low ≤ d * step ∧ d * step ≤ high
    else low < d * step ∧ d * step < high
  let below := value / step
  let above := below + 1
  let belowFits : Bool := 0 < below ∧ readsBack below
  let aboveIsNearer : Bool :=
    match compare (above * step - value) (value - below * step) with
    | .lt => true
    | .eq => tie.goesUp below
    | .gt => false
  if readsBack above ∧ (¬ belowFits ∨ aboveIsNearer) then some above
  else if belowFits then some below
  else none

/-- The first of the grids of `10 ^ k`, `10 ^ (k - 1)`, … that has a point for the fraction. -/
def Binary.search (b : Binary) (tie : Tie) : (grids : Nat) → (k : Int) → Nat × Int
  | 0, k => (0, k)
  | grids + 1, k =>
    match b.gridPoint? tie k with
    | some d => (d, k)
    | none => search b tie grids (k - 1)

/-- The shortest decimal fraction `d * 10 ^ k` for a binary one. Grids from 10³⁰⁹ down to 10⁻³²⁴
are enough for every 64-bit fraction. -/
def Binary.shortest (b : Binary) (tie : Tie) : Nat × Int :=
  b.search tie 640 309

/-- Which fractions are not written in plain notation, and how their power of ten is. -/
structure Scientific where
  /-- The least number of digits before the point in plain notation, where zeros right after the
  point count negative. -/
  least : Int
  /-- The greatest number of digits before the point in plain notation. -/
  greatest : Int
  /-- Whether a power that is not negative has a sign. -/
  plus : Bool

/-- A style of writing. -/
structure FractionStyle where
  tie : Tie
  /-- Scientific notation, if it is used at all. -/
  scientific : Option Scientific

/-- Digits times a power of ten, in plain notation, with a point in every case. -/
def plain (digits : List Char) (k : Int) : List Char :=
  if 0 ≤ k then digits ++ List.replicate k.toNat '0' ++ ['.', '0']
  else
    let places := (-k).toNat
    if places < digits.length then
      digits.take (digits.length - places) ++ '.' :: digits.drop (digits.length - places)
    else '0' :: '.' :: (List.replicate (places - digits.length) '0' ++ digits)

/-- Digits times a power of ten, with one digit before the point and a power of ten behind. -/
def withPower (plus : Bool) (digits : List Char) (k : Int) : List Char :=
  let power := k + digits.length - 1
  let sign := if plus ∧ 0 ≤ power then ['+'] else []
  let behind := 'e' :: (sign ++ (ofInt power).toList)
  match digits with
  | [] => []
  | [d] => d :: behind
  | d :: ds => d :: '.' :: (ds ++ behind)

/-- Digits times a power of ten, in a style of writing. -/
def FractionStyle.layOut (style : FractionStyle) (digits : List Char) (k : Int) : List Char :=
  match style.scientific with
  | none => plain digits k
  | some s =>
    let before := k + digits.length
    if s.least ≤ before ∧ before ≤ s.greatest then plain digits k
    else withPower s.plus digits k

/-- A 64-bit binary fraction as text. -/
def FractionStyle.write (style : FractionStyle) (x : Float) : String :=
  let bits := x.toBits.toNat
  let sign := if signUnit ≤ bits then "-" else ""
  if x.isNaN then "NaN"
  else if x.isInf then sign ++ "inf"
  else if bits % signUnit = 0 then sign ++ "0.0"
  else
    let (d, k) := (Binary.ofBits bits).shortest style.tie
    sign ++ String.ofList (style.layOut (chars d) k)

end Countersign.Decimal
