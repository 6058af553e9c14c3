import ModulePackaging.Text.Printable

/-!
# Quoted text

How a message shows a text it refuses: between single quotes, or between double quotes when it
holds a single quote and no double one. What cannot be shown is written as an escape.
-/

namespace ModulePackaging.Text

/-- The hexadecimal digit of a number below sixteen. -/
def hexDigit (n : Nat) : CodePoint :=
  if n < 10 then CodePoint.ofNat (0x30 + n) else CodePoint.ofNat (0x57 + n)

/-- The lowest `width` hexadecimal digits of a number. -/
def hexDigits : Nat → Nat → Text
  | 0, _ => []
  | width + 1, n => hexDigits width (n / 16) ++ [hexDigit (n % 16)]

/-- A code point as a quoted text shows it. -/
def escapePoint (quote c : CodePoint) : Text :=
  if c = quote ∨ c = 0x5C then [0x5C, c]
  else if c = 0x0A then "\\n"
  else if c = 0x0D then "\\r"
  else if c = 0x09 then "\\t"
  else if isPrintable c then [c]
  else if c.val < 0x100 then "\\x" ++ hexDigits 2 c.val
  else if c.val < 0x10000 then "\\u" ++ hexDigits 4 c.val
  else "\\U" ++ hexDigits 8 c.val

/-- The quote that a text is shown with. -/
def quoteOf (t : Text) : CodePoint :=
  if (0x27 : CodePoint) ∈ t ∧ (0x22 : CodePoint) ∉ t then 0x22 else 0x27

/-- The text between quotes, with escapes for what cannot be shown. -/
def quoted (t : Text) : Text :=
  [quoteOf t] ++ t.flatMap (escapePoint (quoteOf t)) ++ [quoteOf t]

end ModulePackaging.Text
