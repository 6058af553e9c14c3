import ModulePackaging.Text.Range

/-!
# Blanks

What counts as white space at the ends of a text, and which code points end a line.
-/

namespace ModulePackaging

/-- The blanks: the white space of Unicode and the four ASCII separators of records. -/
def CodePoint.blanks : List CodeRange := [
  ⟨0x09, 0x0D⟩, ⟨0x1C, 0x20⟩, ⟨0x85, 0x85⟩, ⟨0xA0, 0xA0⟩, ⟨0x1680, 0x1680⟩, ⟨0x2000, 0x200A⟩,
  ⟨0x2028, 0x2029⟩, ⟨0x202F, 0x202F⟩, ⟨0x205F, 0x205F⟩, ⟨0x3000, 0x3000⟩]

/-- White space. -/
def CodePoint.isBlank (c : CodePoint) : Bool := c.isIn CodePoint.blanks

/-- The code points that end a line, in any of the conventions in use. -/
def CodePoint.lineEnds : List CodeRange := [
  ⟨0x0A, 0x0D⟩, ⟨0x1C, 0x1E⟩, ⟨0x85, 0x85⟩, ⟨0x2028, 0x2029⟩]

namespace Text

/-- The text without the blanks at its start. -/
def trimmedStart (t : Text) : Text := t.dropWhile CodePoint.isBlank

/-- The text without the blanks at its end. -/
def trimmedEnd (t : Text) : Text := (t.reverse.dropWhile CodePoint.isBlank).reverse

/-- The text without the blanks at its ends. -/
def trimmed (t : Text) : Text := t.trimmedStart.trimmedEnd

/-- The text after a code point that was a carriage return or not, its line ends unified. -/
def unifyAfter : Bool → Text → Text
  | _, [] => []
  | afterReturn, c :: rest =>
    if c = 0x0D then 0x0A :: unifyAfter true rest
    else if c = 0x0A ∧ afterReturn then unifyAfter false rest
    else c :: unifyAfter false rest

/-- Line ends of two code points and lone carriage returns, all as one line feed. -/
def unifyLineEnds (t : Text) : Text := unifyAfter false t

/-- The lines of a text whose line ends are unified; a line end at the very end starts no line. -/
def lines (t : Text) : List Text :=
  let pieces := t.splitWhere (·.isIn CodePoint.lineEnds)
  if pieces.getLast? = some [] then pieces.dropLast else pieces

end Text

end ModulePackaging
