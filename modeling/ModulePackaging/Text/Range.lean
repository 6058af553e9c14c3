import ModulePackaging.Text.Basic

/-!
# Ranges of code points

The two shapes that tables of Unicode properties take here: ranges of code points that share a
property, and runs of code points that are mapped by one shift.
-/

namespace ModulePackaging

/-- The code points from `first` to `last`, both included. -/
structure CodeRange where
  first : Nat
  last : Nat

/-- Every `stride`-th code point from `first` to `last` is moved by `shift`. -/
structure CodeShift where
  first : Nat
  last : Nat
  stride : Nat
  shift : Int

namespace CodePoint

variable (c : CodePoint)

/-- Whether one of the ranges holds the code point. -/
def isIn (ranges : List CodeRange) : Bool :=
  ranges.any fun r => r.first ≤ c.val && c.val ≤ r.last

/-- The code point moved by the first run that holds it. -/
def shift (runs : List CodeShift) : CodePoint :=
  match runs.find? fun r =>
      r.first ≤ c.val && c.val ≤ r.last && (c.val - r.first) % r.stride == 0 with
  | some r => ofNat (c.val + r.shift).toNat
  | none => c

end CodePoint

end ModulePackaging
