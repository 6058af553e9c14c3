import ModulePackaging.Power

/-!
# Binary numbers of double precision

The numbers with a fraction that a JSON text can hold, as exact values: a mantissa of at most 53
bits times a power of two not below the 1074th negative one. Reading a decimal rounds to the nearest
such number, a half to the even mantissa.
-/

namespace ModulePackaging

/-- A double: the value of a finite one is `mantissa * 2 ^ exponent`, with its sign. -/
inductive Binary64
  | nan
  | infinite (negative : Bool)
  | finite (negative : Bool) (mantissa : Nat) (exponent : Int)
  deriving DecidableEq

namespace Binary64

/-- Zero with a sign. -/
def zero (negative : Bool) : Binary64 := .finite negative 0 (-1074)

/-- A quotient rounded to the nearest natural number, a half to the even one. -/
def roundQuotient (num den : Nat) : Nat :=
  let q := num / den
  let r := num % den
  if 2 * r < den then q else if den < 2 * r then q + 1 else if q % 2 = 0 then q else q + 1

/-- `num / den * 2 ^ (-exponent)`, rounded to a whole number. -/
def scaled (num den : Nat) (exponent : Int) : Nat :=
  if exponent < 0 then roundQuotient (num * 2 ^ exponent.natAbs) den
  else roundQuotient num (den * 2 ^ exponent.natAbs)

/-- The exponent that gives `num / den` a mantissa of 53 bits, or the least exponent. -/
def exponentOf (num den : Nat) : Int :=
  let e : Int := (Nat.log2 num : Int) - Nat.log2 den - 52
  let reaches :=
    if e < 0 then den * 2 ^ 52 ≤ num * 2 ^ e.natAbs else den * 2 ^ (52 + e.natAbs) ≤ num
  max (if reaches then e else e - 1) (-1074)

/-- The double nearest to `num / den`, for positive numbers. -/
def ofQuotient (negative : Bool) (num den : Nat) : Binary64 :=
  let e := exponentOf num den
  let m := scaled num den e
  let (m, e) := if m = 2 ^ 53 then (2 ^ 52, e + 1) else (m, e)
  if e > 971 then .infinite negative else .finite negative m e

/-- The double nearest to `digits * 10 ^ exponent`; `count` is the number of digits. -/
def ofDecimal (negative : Bool) (digits count : Nat) (exponent : Int) : Binary64 :=
  if digits = 0 then zero negative
  else if exponent + count > 400 then .infinite negative
  else if exponent + count < -400 then zero negative
  else if exponent < 0 then ofQuotient negative digits (10 ^ exponent.natAbs)
  else ofQuotient negative (digits * 10 ^ exponent.natAbs) 1

/-- Neither zero nor a zero with a minus sign. -/
def isNonzero : Binary64 → Bool
  | .finite _ m _ => m != 0
  | _ => true

/-- A place in the order of numbers: below all, at a multiple of a power of two, or above all. -/
inductive Place
  | bottom
  | at (value : Int) (exponent : Int)
  | top

/-- Where a double stands; what is no number stands nowhere. -/
def place? : Binary64 → Option Place
  | .nan => none
  | .infinite negative => some (if negative then .bottom else .top)
  | .finite negative m e => some (.at (if negative then -(m : Int) else m) e)

/-- How two places compare. -/
def Place.compare : Place → Place → Ordering
  | .bottom, .bottom | .top, .top => .eq
  | .bottom, _ | _, .top => .lt
  | _, .bottom | .top, _ => .gt
  | .at a e, .at b f =>
    let low := min e f
    Ord.compare (a * 2 ^ (e - low).natAbs) (b * 2 ^ (f - low).natAbs)

end Binary64

end ModulePackaging
