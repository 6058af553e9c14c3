import ModulePackaging.Decimal.Binary64
import ModulePackaging.Text.Basic

/-!
# The shortest decimal

A double is written with the fewest digits that read back as the same double; of two such decimals
the nearer one is taken, and of two equally near ones the even one. The decimal point is written
positionally from the fourth place after it to the sixteenth before it, else with an exponent.
-/

namespace ModulePackaging.Binary64

/-- The numbers `low < 4 * m < high`, in quarters of the last place, between which all decimals
round to the mantissa `m`. Below a power of two the doubles lie twice as dense. -/
def interval (m : Nat) (e : Int) : Nat × Nat :=
  (if m = 2 ^ 52 ∧ e > -1074 then 4 * m - 1 else 4 * m - 2, 4 * m + 2)

/-- The multiple of `10 ^ p` that is nearest to `m * 2 ^ e` among those that round to it. -/
def onGrid? (m : Nat) (e p : Int) : Option Nat :=
  let quarter := e - 2
  let a := 2 ^ (max quarter 0).natAbs * 10 ^ (max (-p) 0).natAbs
  let b := 10 ^ (max p 0).natAbs * 2 ^ (max (-quarter) 0).natAbs
  let (low, high) := interval m e
  let hits (d : Nat) : Bool :=
    if m % 2 = 0 then low * a ≤ d * b && d * b ≤ high * a else low * a < d * b && d * b < high * a
  let value := 4 * m * a
  let below := value / b
  match hits below, hits (below + 1) with
  | false, false => none
  | true, false => some below
  | false, true => some (below + 1)
  | true, true =>
    let toBelow := value - below * b
    let toAbove := (below + 1) * b - value
    if toBelow < toAbove then some below else if toAbove < toBelow then some (below + 1)
    else some (if below % 2 = 0 then below else below + 1)

/-- Searches the grids `10 ^ p`, `10 ^ (p - 1)`, … for the coarsest one that has a decimal. -/
def coarsest (m : Nat) (e : Int) : Nat → Int → Nat × Int
  | 0, p => (0, p)
  | fuel + 1, p =>
    match onGrid? m e p with
    | some d => (d, p)
    | none => coarsest m e fuel (p - 1)

/-- The shortest decimal `d * 10 ^ p` of a positive double. -/
def shortest (m : Nat) (e : Int) : Nat × Int :=
  coarsest m e 24 ((((Nat.log2 m : Int) + e + 1) * 30103).fdiv 100000 + 2)

/-- An exponent with its sign and at least two digits. -/
def exponentText (n : Int) : Text :=
  let digits := Text.ofNat n.natAbs
  (if n < 0 then "-" else "+") ++ (if digits.length < 2 then "0" ++ digits else digits)

/-- A run of zeros. -/
def zeros (n : Nat) : Text := List.replicate n 0x30

/-- The decimal `d * 10 ^ p` in the notation of this format. -/
def decimalText (d : Nat) (p : Int) : Text :=
  let digits := Text.ofNat d
  let point : Int := digits.length + p
  if point ≤ -4 ∨ 16 < point then
    let fraction : Text := if digits.length ≤ 1 then [] else "." ++ digits.drop 1
    digits.take 1 ++ fraction ++ "e" ++ exponentText (point - 1)
  else if point ≤ 0 then "0." ++ zeros point.natAbs ++ digits
  else if p < 0 then (digits.take point.natAbs : Text) ++ "." ++ digits.drop point.natAbs
  else digits ++ zeros p.natAbs ++ ".0"

/-- The text of a double; `infinity` is the word for what exceeds all numbers. -/
def textWith (nan infinity : Text) : Binary64 → Text
  | .nan => nan
  | .infinite negative => (if negative then "-" else "") ++ infinity
  | .finite negative m e =>
    let sign : Text := if negative then "-" else ""
    if m = 0 then sign ++ "0.0"
    else
      let (d, p) := shortest m e
      sign ++ decimalText d p

/-- The text of a double in a message. -/
def text (x : Binary64) : Text := x.textWith "nan" "inf"

end ModulePackaging.Binary64
