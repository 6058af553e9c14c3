/-!
# Arithmetic modulo a number

Powers, inverses and differences modulo a number, for the fields and the orders of curves.
-/

namespace ModulePackaging.Residue

/-- `base ^ exponent`, modulo `modulus`. -/
def power (modulus base exponent : Nat) : Nat :=
  if h : exponent = 0 then 1 % modulus
  else
    let half := power modulus (base * base % modulus) (exponent / 2)
    if exponent % 2 = 0 then half else half * base % modulus
termination_by exponent
decreasing_by exact Nat.div_lt_self (Nat.pos_of_ne_zero h) (by decide)

/-- The inverse of a number modulo a prime. -/
def inverse (prime n : Nat) : Nat := power prime (n % prime) (prime - 2)

/-- `a - b`, modulo `modulus`; `b` is below it. -/
def minus (modulus a b : Nat) : Nat := (a + (modulus - b)) % modulus

/-- The bits of a number, the highest first. -/
def bits (n : Nat) : List Bool := ((List.range (Nat.log2 n + 1)).map n.testBit).reverse

end ModulePackaging.Residue
