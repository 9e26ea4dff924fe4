import Countersign.Curve.Field

/-!
# `Countersign.Curve.Point`: the curve secp256k1

The points with y² = x³ + 7 over the field with `fieldPrime` elements form a group with
`groupOrder` elements. A point is kept as x = X / Z², y = Y / Z³, which spares a division at each
step; Z is zero for the neutral point alone.
-/

set_option autoImplicit false

namespace Countersign.Curve

/-- The number of elements of the field. -/
def fieldPrime : Nat := 0xfffffffffffffffffffffffffffffffffffffffffffffffffffffffefffffc2f

/-- The number of points, which is prime too. -/
def groupOrder : Nat := 0xfffffffffffffffffffffffffffffffebaaedce6af48a03bbfd25e8cd0364141

/-- The sum in the field. -/
def addF (a b : Nat) : Nat := Modular.add fieldPrime a b

/-- The difference in the field. -/
def subF (a b : Nat) : Nat := Modular.sub fieldPrime a b

/-- The product in the field. -/
def mulF (a b : Nat) : Nat := Modular.mul fieldPrime a b

/-- A point as three field elements. -/
structure Point where
  x : Nat
  y : Nat
  z : Nat
  deriving Repr

namespace Point

/-- The neutral point. -/
def neutral : Point := ⟨1, 1, 0⟩

/-- The point with these coordinates. -/
def ofAffine (x y : Nat) : Point := ⟨x, y, 1⟩

/-- The point that generates the group. -/
def generator : Point :=
  ofAffine 0x79be667ef9dcbbac55a06295ce870b07029bfcdb2dce28d959f2815b16f81798
    0x483ada7726a3c4655da4fbfc0e1108a8fd17b448a68554199c47d08ffb10d4b8

/-- The sum of a point with itself. -/
def double (p : Point) : Point :=
  -- Where y is zero the tangent meets the curve nowhere else.
  if p.y = 0 ∨ p.z = 0 then neutral
  else
    let yy := mulF p.y p.y
    let s := mulF 4 (mulF p.x yy)
    let m := mulF 3 (mulF p.x p.x)
    let x := subF (mulF m m) (mulF 2 s)
    ⟨x, subF (mulF m (subF s x)) (mulF 8 (mulF yy yy)), mulF 2 (mulF p.y p.z)⟩

/-- The sum of two points. -/
def add (p q : Point) : Point :=
  if p.z = 0 then q
  else if q.z = 0 then p
  else
    -- Both points get the denominator `p.z * q.z`: squared below the x, which are then `u` and
    -- `u'`, and cubed below the y, which are `s` and `s'`.
    let pzz := mulF p.z p.z
    let qzz := mulF q.z q.z
    let u := mulF p.x qzz
    let u' := mulF q.x pzz
    let s := mulF p.y (mulF qzz q.z)
    let s' := mulF q.y (mulF pzz p.z)
    -- Points with the same x are equal or opposite.
    if u = u' then
      if s = s' then double p else neutral
    else
      let h := subF u' u
      let r := subF s' s
      let hh := mulF h h
      let hhh := mulF hh h
      let uhh := mulF u hh
      let x := subF (subF (mulF r r) hhh) (mulF 2 uhh)
      ⟨x, subF (mulF r (subF uhh x)) (mulF s hhh), mulF h (mulF p.z q.z)⟩

/-- The coordinates of a point that is not neutral. -/
def toAffine? (p : Point) : Option (Nat × Nat) :=
  if p.z = 0 then none
  else
    let w := Modular.inv fieldPrime p.z
    let ww := mulF w w
    some (mulF p.x ww, mulF p.y (mulF ww w))

/-- The lowest `width` bits of a number, the highest of them first. -/
def bits (width n : Nat) : List Bool :=
  (List.range width).reverse.map n.testBit

/-- The sum `a * p + b * q`, for factors of 256 bits. -/
def combine (a : Nat) (p : Point) (b : Nat) (q : Point) : Point :=
  -- Both factors are gone through together, so that they share the doublings.
  let both := p.add q
  ((bits 256 a).zip (bits 256 b)).foldl (fun sum (i, j) =>
    let sum := sum.double
    match i, j with
    | false, false => sum
    | true, false => sum.add p
    | false, true => sum.add q
    | true, true => sum.add both) neutral

/-- The multiple `a * p`, for a factor of 256 bits. -/
def scale (a : Nat) (p : Point) : Point :=
  (bits 256 a).foldl (fun sum i => if i then sum.double.add p else sum.double) neutral

end Point

/-- The right-hand side of the equation of the curve. -/
def cubic (x : Nat) : Nat := addF (mulF x (mulF x x)) 7

/-- The point with this x, and with an odd or an even y, if there is one. -/
def liftX? (x : Nat) (odd : Bool) : Option Point :=
  if fieldPrime ≤ x then none
  else
    let yy := cubic x
    -- The prime leaves 3 when it is divided by 4, so this power is a root wherever there is one.
    let y := Modular.pow fieldPrime yy ((fieldPrime + 1) / 4)
    if mulF y y ≠ yy then none
    else if (y % 2 == 1) = odd then some (Point.ofAffine x y)
    else some (Point.ofAffine x (subF 0 y))

end Countersign.Curve
