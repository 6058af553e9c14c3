import ModulePackaging.Sorting

/-!
# Text

A text is a list of Unicode code points. A surrogate that stands alone is allowed, because an escape
in a JSON text can bring one in; it has no UTF-8 form, and whoever writes such a text to a file is
told so. A string literal stands for its code points wherever a text is expected.
-/

namespace ModulePackaging

/-- A Unicode code point, surrogates included. -/
abbrev CodePoint := Fin 0x110000

instance CodePoint.neZero : @NeZero Nat Zero.ofOfNat0 0x110000 := ⟨by decide⟩

/-- A text is its code points, in order. -/
abbrev Text := List CodePoint

/-- Texts are compared code point by code point; a text comes after each of its beginnings. -/
instance Text.instLT : LT Text := List.instLT

instance Text.instLE : LE Text := List.instLE

instance Text.lawfulBEq : LawfulBEq Text := inferInstance

/-- The content of a file, a key or a signature. -/
abbrev Bytes := List UInt8

namespace CodePoint

/-- The code point with the given number; a number past the last one gives the replacement mark. -/
def ofNat (n : Nat) : CodePoint :=
  if h : n < 0x110000 then ⟨n, h⟩ else 0xFFFD

/-- The code point of a character. -/
def ofChar (c : Char) : CodePoint := ofNat c.toNat

instance : Coe Char CodePoint := ⟨ofChar⟩

/-- A surrogate stands for a character only together with a second one. -/
def isSurrogate (c : CodePoint) : Bool := 0xD800 ≤ c.val && c.val ≤ 0xDFFF

/-- An ASCII capital. -/
def isAsciiUpper (c : CodePoint) : Bool := 0x41 ≤ c.val && c.val ≤ 0x5A

/-- An ASCII small letter. -/
def isAsciiLower (c : CodePoint) : Bool := 0x61 ≤ c.val && c.val ≤ 0x7A

/-- An ASCII letter. -/
def isAsciiLetter (c : CodePoint) : Bool := c.isAsciiUpper || c.isAsciiLower

/-- The capital of an ASCII small letter; all else stays. -/
def asciiUpper (c : CodePoint) : CodePoint :=
  if c.isAsciiLower then ofNat (c.val - 0x20) else c

end CodePoint

namespace Text

/-- The code points of a string. -/
def ofString (s : String) : Text := s.toList.map CodePoint.ofChar

instance : Coe String Text := ⟨ofString⟩

/-- The string of a text; a surrogate that stands alone becomes the replacement mark. -/
def toString (t : Text) : String :=
  String.ofList (t.map fun c => if c.isSurrogate then '\uFFFD' else Char.ofNat c.val)

/-- The pieces between the code points that `ends` holds of: one more than there are such. -/
def splitWhere (ends : CodePoint → Bool) : Text → List Text
  | [] => [[]]
  | c :: rest =>
    if ends c then [] :: splitWhere ends rest
    else match splitWhere ends rest with
      | [] => [[c]]
      | piece :: pieces => (c :: piece) :: pieces

/-- The pieces between the separators. -/
def splitOn (sep : CodePoint) (t : Text) : List Text := t.splitWhere (· == sep)

/-- The pieces in order with the separator between them. -/
def joined (sep : Text) : List Text → Text
  | [] => []
  | [piece] => piece
  | piece :: pieces => piece ++ sep ++ joined sep pieces

/-- Every `old` replaced by `new`. -/
def replacing (old new : CodePoint) (t : Text) : Text :=
  t.map fun c => if c = old then new else c

/-- Whether the text begins with `start`. -/
def startsWith (t start : Text) : Bool := start.isPrefixOf t

/-- The texts in ascending order of their code points. -/
def sorted (ts : List Text) : List Text := sortedBy (fun a b => decide (a ≤ b)) ts

/-- The texts without repetition, each at its first place. -/
def distinct (ts : List Text) : List Text :=
  ts.foldl (fun seen t => if t ∈ seen then seen else seen ++ [t]) []

/-- The decimal digits of a natural number. -/
def ofNat (n : Nat) : Text := ofString (Nat.repr n)

/-- The decimal digits of an integer, after a minus sign when it is negative. -/
def ofInt : Int → Text
  | .ofNat n => ofNat n
  | .negSucc n => "-" ++ ofNat (n + 1)

/-- The texts one after the other, separated by a comma and a space. -/
def listed (ts : List Text) : Text := joined ", " ts

end Text

end ModulePackaging
