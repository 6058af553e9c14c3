import ModulePackaging.Decimal.Whole
import ModulePackaging.Json.Value
import ModulePackaging.Decimal.Shortest
import ModulePackaging.Text.Quoted
import ModulePackaging.Text.Utf8

/-!
# Writing JSON

Three forms of a value: the canonical one, which signatures cover (keys sorted by code point, no
blanks, UTF-8), the compact one of reports (the same in ASCII), and the indented one for readers.
In each the members of an object come in the order of their keys, so the order in which they were
set never shows.
-/

namespace ModulePackaging.Json

/-- The escape of two letters that some code points have. -/
def shortEscape? (c : CodePoint) : Option Text :=
  if c = 0x22 then some "\\\""
  else if c = 0x5C then some "\\\\"
  else if c = 0x0A then some "\\n"
  else if c = 0x0D then some "\\r"
  else if c = 0x09 then some "\\t"
  else if c = 0x08 then some "\\b"
  else if c = 0x0C then some "\\f"
  else none

/-- The escape of four digits. -/
def unitEscape (n : Nat) : Text := "\\u" ++ Text.hexDigits 4 n

/-- A code point inside a canonical string: only quotes, backslashes and controls are escaped. -/
def escapeControls (c : CodePoint) : Text :=
  match shortEscape? c with
  | some escape => escape
  | none => if c.val < 0x20 then unitEscape c.val else [c]

/-- A code point inside an ASCII string; one past the first plane takes two escapes. -/
def escapeToAscii (c : CodePoint) : Text :=
  match shortEscape? c with
  | some escape => escape
  | none =>
    if 0x20 ≤ c.val ∧ c.val ≤ 0x7E then [c]
    else if c.val < 0x10000 then unitEscape c.val
    else unitEscape (0xD800 + (c.val - 0x10000) / 0x400) ++
      unitEscape (0xDC00 + (c.val - 0x10000) % 0x400)

/-- How a form writes strings, and the blanks it puts between tokens: a line end with `indent`
spaces per level, or nothing. -/
structure Style where
  escape : CodePoint → Text
  indent : Option Nat

/-- The form that is signed and stored. -/
def Style.canonical : Style := ⟨escapeControls, none⟩

/-- The form of machine-readable reports. -/
def Style.compact : Style := ⟨escapeToAscii, none⟩

/-- The form for readers. -/
def Style.indented : Style := ⟨escapeToAscii, some 2⟩

namespace Style

variable (style : Style)

/-- A string between quotes. -/
def string (t : Text) : Text := [0x22] ++ t.flatMap style.escape ++ [0x22]

/-- The line end in front of an item at a level. -/
def lineEnd (level : Nat) : Text :=
  match style.indent with
  | none => []
  | some width => 0x0A :: List.replicate (width * level) 0x20

/-- What stands between a key and its value. -/
def colon : Text := if style.indent.isSome then ": " else ":"

/-- The members in the order of their keys. -/
def inKeyOrder {α : Type} (members : List (Text × α)) : List (Text × α) :=
  sortedBy (fun a b => decide (a.1 ≤ b.1)) members

/-- Written items between brackets, one level below `level`. -/
def bracketed (opening closing : CodePoint) (level : Nat) (items : List Text) : Text :=
  if items.isEmpty then [opening, closing]
  else
    let separator : Text := 0x2C :: style.lineEnd (level + 1)
    [opening] ++ style.lineEnd (level + 1) ++ Text.joined separator items ++
      style.lineEnd level ++ [closing]

mutual

/-- A value at a level of nesting. -/
def write (level : Nat) : Json → Text
  | .null => "null"
  | .bool true => "true"
  | .bool false => "false"
  | .int n => Text.ofInt n
  | .float x => x.textWith "NaN" "Infinity"
  | .str t => style.string t
  | .arr items => style.bracketed 0x5B 0x5D level (writeItems (level + 1) items)
  | .obj members =>
    style.bracketed 0x7B 0x7D level
      ((inKeyOrder (writeMembers (level + 1) members)).map fun (key, written) =>
        style.string key ++ style.colon ++ written)

/-- The items of an array, each written. -/
def writeItems (level : Nat) : List Json → List Text
  | [] => []
  | item :: rest => write level item :: writeItems level rest

/-- The members of an object, each with its value written. -/
def writeMembers (level : Nat) : List (Text × Json) → List (Text × Text)
  | [] => []
  | (key, item) :: rest => (key, write level item) :: writeMembers level rest

end

end Style

/-- The canonical text of a value. -/
def canonicalText (value : Json) : Text := Style.canonical.write 0 value

mutual

/-- Whether a value holds a number that has too many digits to be written. -/
def holdsLong : Json → Bool
  | .int n => Decimal.isLong n
  | .arr items => itemsHoldLong items
  | .obj members => membersHoldLong members
  | _ => false

/-- Whether one of some items holds such a number. -/
def itemsHoldLong : List Json → Bool
  | [] => false
  | item :: rest => item.holdsLong || itemsHoldLong rest

/-- Whether the value of one of some members holds such a number. -/
def membersHoldLong : List (Text × Json) → Bool
  | [] => false
  | (_, item) :: rest => item.holdsLong || membersHoldLong rest

end

/-- The canonical bytes of a value, unless it holds a surrogate that stands alone. -/
def canonicalBytes (value : Json) : Except Unencodable Bytes := Utf8.encode value.canonicalText

/-- The value on one line, in ASCII. -/
def compactText (value : Json) : Text := Style.compact.write 0 value

/-- The value with a line for each item, in ASCII. -/
def indentedText (value : Json) : Text := Style.indented.write 0 value

mutual

/-- A value as a message shows it. -/
def display : Json → Text
  | null => "None"
  | bool true => "True"
  | bool false => "False"
  | int n => Text.ofInt n
  | float x => x.text
  | str t => t.quoted
  | arr items => "[" ++ Text.listed (displayItems items) ++ "]"
  | obj members => "\x7b" ++ Text.listed (displayMembers members) ++ "\x7d"

/-- The items of an array, as a message shows them. -/
def displayItems : List Json → List Text
  | [] => []
  | item :: rest => item.display :: displayItems rest

/-- The members of an object, as a message shows them. -/
def displayMembers : List (Text × Json) → List Text
  | [] => []
  | (key, item) :: rest => (key.quoted ++ ": " ++ item.display) :: displayMembers rest

end

/-- A value as part of a message: a text stands for itself. -/
def inMessage : Json → Text
  | str t => t
  | value => value.display

/-- The text that a value amounts to where a text is wanted: nothing if it counts as absent. -/
def textOrEmpty (value : Json) : Text := if value.isTruthy then value.inMessage else []

end ModulePackaging.Json
