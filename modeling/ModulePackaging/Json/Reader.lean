import ModulePackaging.Json.Value
import ModulePackaging.Decimal.Whole

/-!
# Reading JSON

Reads one value from a text, with blanks around it. A repeated key keeps its first place and takes
its last value; `NaN` and the infinities are numbers; an escaped surrogate may stand alone. Every
refusal names the place of the first offence, as line, column and distance from the start.
-/

namespace ModulePackaging.Json

/-- What is wrong with a text that is not JSON. -/
inductive Defect
  | expectingValue
  | extraData
  | expectingKey
  | expectingColon
  | expectingComma
  | unterminated
  | controlCharacter
  | badEscape
  | badUnicodeEscape
  | byteOrderMark
  deriving DecidableEq

/-- The defect in words. -/
def Defect.message : Defect → Text
  | .expectingValue => "Expecting value"
  | .extraData => "Extra data"
  | .expectingKey => "Expecting property name enclosed in double quotes"
  | .expectingColon => "Expecting ':' delimiter"
  | .expectingComma => "Expecting ',' delimiter"
  | .unterminated => "Unterminated string starting at"
  | .controlCharacter => "Invalid control character at"
  | .badEscape => "Invalid \\escape"
  | .badUnicodeEscape => "Invalid \\uXXXX escape"
  | .byteOrderMark => "Unexpected UTF-8 BOM (decode using utf-8-sig)"

/-- Why no value can be read: a defect at a distance from the start, a number of too many digits,
or arrays or objects nested too deeply. -/
inductive ReadError
  | defect (what : Defect) (position line column : Nat)
  | tooLong (digits : Nat)
  | tooDeep (container : Text)

/-- The refusal in words. -/
def ReadError.message : ReadError → Text
  | .defect what position line column =>
    what.message ++ ": line " ++ Text.ofNat line ++ " column " ++ Text.ofNat column ++
      " (char " ++ Text.ofNat position ++ ")"
  | .tooLong digits => (Decimal.WholeError.tooLong digits).message
  | .tooDeep container =>
    "maximum recursion depth exceeded while decoding a JSON " ++ container ++
      " from a unicode string"

/-- How deeply arrays and objects may be nested. -/
def nestingLimit : Nat := 990

namespace Reader

/-- A refusal before line and column are known. -/
inductive Stop
  | defect (what : Defect) (position : Nat)
  | tooLong (digits : Nat)
  | tooDeep (container : Text)

/-- A place in the text: how far from the start it is, and what follows it. -/
structure Cursor where
  position : Nat
  rest : Text

/-- What a step of the reader finds: a result and the place after it. -/
abbrev Found (α : Type) := α × Cursor

namespace Cursor

variable (at_ : Cursor)

/-- The place `n` code points further. -/
def advance (n : Nat) : Cursor := ⟨at_.position + n, at_.rest.drop n⟩

/-- The code point at a place. -/
def here? : Option CodePoint := at_.rest.head?

/-- A refusal at a place. -/
def refuse {α : Type} (what : Defect) : Except Stop α := .error (.defect what at_.position)

end Cursor

/-- The blanks between the tokens of a JSON text. -/
def isSpace (c : CodePoint) : Bool := c == ' ' || c == '\t' || c == '\n' || c == '\r'

/-- The place after the blanks at a place. -/
def skipSpace (cursor : Cursor) : Cursor :=
  cursor.advance (cursor.rest.takeWhile isSpace).length

/-- The value of a hexadecimal digit. -/
def hexValue? (c : CodePoint) : Option Nat :=
  if c.isAsciiDigit then some (c.val - 0x30)
  else if 0x61 ≤ c.val ∧ c.val ≤ 0x66 then some (c.val - 0x57)
  else if 0x41 ≤ c.val ∧ c.val ≤ 0x46 then some (c.val - 0x37)
  else none

/-- The code that four hexadecimal digits spell; more text must follow them. -/
def hexCode? (rest : Text) : Option Nat :=
  if (rest.drop 4).isEmpty then none
  else (rest.take 4).foldl (fun code c => do return (← code) * 16 + (← hexValue? c)) (some 0)

/-- The code point of a one-letter escape. -/
def escaped? (c : CodePoint) : Option CodePoint :=
  if c = '"' ∨ c = '\\' ∨ c = '/' then some c
  else if c = 'b' then some 0x08
  else if c = 'f' then some 0x0C
  else if c = 'n' then some 0x0A
  else if c = 'r' then some 0x0D
  else if c = 't' then some 0x09
  else none

/-- Whether a second escape follows the four digits of a high surrogate, with room after it. -/
def pairFollows (rest : Text) : Bool :=
  !(rest.drop 6).isEmpty && rest.take 2 == ([0x5C, 0x75] : Text)

/-- The code point of an escape of four digits, of which the first is at `cursor`, and the place
after it. Two escapes that are the halves of a pair give one code point. -/
def unicodeEscape (cursor : Cursor) : Except Stop (Found CodePoint) :=
  match hexCode? cursor.rest with
  | none => .error (.defect .badUnicodeEscape (cursor.position - 1))
  | some high =>
    let next := cursor.advance 4
    if 0xD800 ≤ high ∧ high ≤ 0xDBFF ∧ pairFollows next.rest then
      match hexCode? (next.rest.drop 2) with
      | none => .error (.defect .badUnicodeEscape (next.position + 1))
      | some low =>
        if 0xDC00 ≤ low ∧ low ≤ 0xDFFF then
          .ok (CodePoint.ofNat (0x10000 + (high - 0xD800) * 0x400 + (low - 0xDC00)),
            next.advance 6)
        else .ok (CodePoint.ofNat high, next)
    else .ok (CodePoint.ofNat high, next)

/-- The rest of a string whose opening quote is at `start`, after the code points in `read` (the
latest first). -/
def stringFrom (start : Nat) : Nat → Text → Cursor → Except Stop (Found Text)
  | 0, _, _ => .error (.defect .unterminated start)
  | fuel + 1, read, cursor =>
    match cursor.rest with
    | [] => .error (.defect .unterminated start)
    | c :: rest =>
      if c = '"' then .ok (read.reverse, cursor.advance 1)
      else if c = '\\' then
        match rest with
        | [] => .error (.defect .unterminated start)
        | kind :: _ =>
          if kind = 'u' then do
            let (point, next) ← unicodeEscape (cursor.advance 2)
            stringFrom start fuel (point :: read) next
          else match escaped? kind with
            | some point => stringFrom start fuel (point :: read) (cursor.advance 2)
            | none => cursor.refuse .badEscape
      else if c.val ≤ 0x1F then cursor.refuse .controlCharacter
      else stringFrom start fuel (c :: read) (cursor.advance 1)

/-- A string whose opening quote is at `cursor`. -/
def string (cursor : Cursor) : Except Stop (Found Text) :=
  stringFrom cursor.position cursor.rest.length [] (cursor.advance 1)

/-- The digits at the start of a text. -/
def digitsOf (t : Text) : Text := t.takeWhile CodePoint.isAsciiDigit

/-- The number of digits in the whole part of an unsigned number: a zero stands alone. -/
def wholePart (t : Text) : Nat :=
  match t with
  | [] => 0
  | c :: _ => if c = '0' then 1 else (digitsOf t).length

/-- The number of digits after a decimal point that stands at the start of a text. -/
def fractionPart (t : Text) : Nat :=
  match t with
  | [] => 0
  | c :: rest => if c = '.' then (digitsOf rest).length else 0

/-- The exponent at the start of a text: its length, its sign and its digits. -/
def exponentPart? (t : Text) : Option (Nat × Bool × Text) :=
  match t with
  | [] => none
  | c :: rest =>
    if c = 'e' ∨ c = 'E' then
      let signed := rest.head? == some ('-' : CodePoint) || rest.head? == some ('+' : CodePoint)
      let digits := digitsOf (if signed then rest.drop 1 else rest)
      if digits.isEmpty then none
      else some (1 + (if signed then 1 else 0) + digits.length,
        rest.head? == some ('-' : CodePoint), digits)
    else none

/-- The number that ASCII digits stand for. -/
def valueOf (digits : Text) : Nat := Decimal.ofDigits (digits.map fun c => c.val - 0x30)

/-- A number; it has a fraction if a decimal point or an exponent belongs to it. -/
def number (cursor : Cursor) : Except Stop (Found Json) :=
  let negative := cursor.here? == some ('-' : CodePoint)
  let unsigned := if negative then cursor.rest.drop 1 else cursor.rest
  let whole := wholePart unsigned
  if whole = 0 then cursor.refuse .expectingValue
  else
    let afterWhole := unsigned.drop whole
    let places := fractionPart afterWhole
    let afterFraction := if places = 0 then afterWhole else afterWhole.drop (places + 1)
    let length := (if negative then 1 else 0) + whole + (if places = 0 then 0 else places + 1)
    match places, exponentPart? afterFraction with
    | 0, none =>
      if whole > Decimal.digitLimit then .error (.tooLong whole)
      else
        let n : Int := valueOf (unsigned.take whole)
        .ok (.int (if negative then -n else n), cursor.advance length)
    | _, exponent =>
      let (width, below, power) := exponent.getD (0, false, [])
      let power : Int := if below then -(valueOf power : Int) else valueOf power
      let digits := unsigned.take whole ++ (afterWhole.drop 1).take places
      .ok (.float (Binary64.ofDecimal negative (valueOf digits) digits.length (power - places)),
        cursor.advance (length + width))

/-- The words that stand for a value. -/
def words : List (Text × Json) := [
  ("null", .null), ("true", .bool true), ("false", .bool false), ("NaN", .float .nan),
  ("Infinity", .float (.infinite false)), ("-Infinity", .float (.infinite true))]

/-- A word or a number. -/
def plain (cursor : Cursor) : Except Stop (Found Json) :=
  match words.find? fun (word, _) => word.isPrefixOf cursor.rest with
  | some (word, value) => .ok (value, cursor.advance word.length)
  | none => number cursor

/-- The key of a member, with its colon, and the place where its value starts. -/
def key (cursor : Cursor) : Except Stop (Found Text) :=
  if cursor.here? == some ('"' : CodePoint) then do
    let (name, next) ← string cursor
    let colon := skipSpace next
    if colon.here? == some (':' : CodePoint) then .ok (name, skipSpace (colon.advance 1))
    else colon.refuse .expectingColon
  else cursor.refuse .expectingKey

mutual

/-- The value at a place, when arrays and objects may be nested `depth` deep. -/
def value (depth : Nat) : Nat → Cursor → Except Stop (Found Json)
  | 0, cursor => cursor.refuse .expectingValue
  | fuel + 1, cursor =>
    match cursor.here? with
    | none => cursor.refuse .expectingValue
    | some c =>
      if c = '"' then do
        let (t, next) ← string cursor
        .ok (.str t, next)
      else if c = '\x7b' then
        match depth with
        | 0 => .error (.tooDeep "object")
        | depth + 1 =>
          let first := skipSpace (cursor.advance 1)
          if first.here? == some ('\x7d' : CodePoint) then .ok (.obj [], first.advance 1)
          else members depth fuel [] first
      else if c = '[' then
        match depth with
        | 0 => .error (.tooDeep "array")
        | depth + 1 =>
          let first := skipSpace (cursor.advance 1)
          if first.here? == some (']' : CodePoint) then .ok (.arr [], first.advance 1)
          else items depth fuel [] first
      else plain cursor

/-- The rest of an object, after the members in `read`. -/
def members (depth : Nat) : Nat → List (Text × Json) → Cursor → Except Stop (Found Json)
  | 0, _, cursor => cursor.refuse .expectingKey
  | fuel + 1, read, cursor => do
    let (name, start) ← key cursor
    let (member, next) ← value depth fuel start
    let read := (name, member) :: read
    let next := skipSpace next
    if next.here? == some ('\x7d' : CodePoint) then
      .ok (.obj (Members.ofPairs read.reverse), next.advance 1)
    else if next.here? == some (',' : CodePoint) then
      members depth fuel read (skipSpace (next.advance 1))
    else next.refuse .expectingComma

/-- The rest of an array, after the items in `read` (the latest first). -/
def items (depth : Nat) : Nat → List Json → Cursor → Except Stop (Found Json)
  | 0, _, cursor => cursor.refuse .expectingValue
  | fuel + 1, read, cursor => do
    let (item, next) ← value depth fuel cursor
    let read := item :: read
    let next := skipSpace next
    if next.here? == some (']' : CodePoint) then .ok (.arr read.reverse, next.advance 1)
    else if next.here? == some (',' : CodePoint) then
      items depth fuel read (skipSpace (next.advance 1))
    else next.refuse .expectingComma

end

/-- One value with blanks around it, and nothing else. -/
def document (t : Text) : Except Stop Json :=
  if t.head? == some 0xFEFF then .error (.defect .byteOrderMark 0)
  else do
    let (result, next) ← value nestingLimit (2 * t.length + 2) (skipSpace ⟨0, t⟩)
    let last := skipSpace next
    if last.rest.isEmpty then .ok result else last.refuse .extraData

/-- A refusal with the line and the column of its place in the text. -/
def locate (t : Text) : Stop → ReadError
  | .tooLong digits => .tooLong digits
  | .tooDeep container => .tooDeep container
  | .defect what position =>
    let before := t.take position
    .defect what position (before.count 0x0A + 1)
      (1 + (before.reverse.takeWhile (· != 0x0A)).length)

end Reader

/-- The value that a JSON text holds. -/
def read (t : Text) : Except ReadError Json := (Reader.document t).mapError (Reader.locate t)

end ModulePackaging.Json
