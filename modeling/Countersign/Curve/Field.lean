/-!
# `Countersign.Curve.Field`: arithmetic modulo a prime

Numbers below a prime modulus, as natural numbers. Every operation reduces its result, so results
stay below the modulus.
-/

set_option autoImplicit false

namespace Countersign.Modular

/-- The sum. -/
def add (m a b : Nat) : Nat := (a + b) % m

/-- The difference of two numbers, of which the second is below the modulus. -/
def sub (m a b : Nat) : Nat := (a + (m - b)) % m

/-- The product. -/
def mul (m a b : Nat) : Nat := a * b % m

/-- The power, by squaring. -/
def pow (m base exponent : Nat) : Nat :=
  if exponent = 0 then 1 % m
  else
    let half := pow m (base * base % m) (exponent / 2)
    if exponent % 2 = 1 then half * base % m else half
termination_by exponent

/-- The inverse of a number that is not zero modulo the prime `m`, by the theorem of Fermat. -/
def inv (m a : Nat) : Nat := pow m a (m - 2)

end Countersign.Modular
