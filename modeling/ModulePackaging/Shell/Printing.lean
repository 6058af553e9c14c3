import ModulePackaging.Decimal.Whole
import ModulePackaging.Text.Utf8

/-!
# Printing commands

What the commands that print their arguments print: one with escapes in the arguments, and one with
a format.
-/

namespace ModulePackaging.Shell.Printing

/-- An octal digit. -/
def isOctal (c : CodePoint) : Bool := 0x30 ≤ c.val && c.val ≤ 0x37

/-- The byte of at most three octal digits at the start of a text, and the rest. -/
def takeOctal (t : Text) : UInt8 × Text :=
  let digits := (t.take 3).takeWhile isOctal
  ((digits.foldl (fun (n : Nat) c => 8 * n + (c.val - 0x30)) 0).toUInt8, t.drop digits.length)

/-- The bytes that a letter behind a backslash stands for. -/
def escapeOf? (c : CodePoint) : Option Bytes :=
  if c = 'a' then some [0x07]
  else if c = 'b' then some [0x08]
  else if c = 'e' then some [0x1B]
  else if c = 'f' then some [0x0C]
  else if c = 'n' then some [0x0A]
  else if c = 'r' then some [0x0D]
  else if c = 't' then some [0x09]
  else if c = 'v' then some [0x0B]
  else if c = '\\' then some [0x5C]
  else none

/-- The bytes of an escape behind its backslash, and the rest. -/
def takeEscape : Text → Bytes × Text
  | [] => ([0x5C], [])
  | c :: rest =>
    match escapeOf? c with
    | some bytes => (bytes, rest)
    | none =>
      if isOctal c then
        let (byte, rest) := takeOctal (c :: rest)
        ([byte], rest)
      else (0x5C :: Utf8.encodePoint c, rest)

/-- An argument with its escapes replaced, and whether an escape ends all printing. -/
def expand : Nat → Text → Bytes × Bool
  | 0, _ | _, [] => ([], false)
  | fuel + 1, c :: rest =>
    if c ≠ '\\' then
      let (bytes, stop) := expand fuel rest
      (Utf8.encodePoint c ++ bytes, stop)
    else if rest.head? = some 'c' then ([], true)
    else
      let (escape, rest) :=
        if rest.head? = some '0' then
          let (byte, rest) := takeOctal rest.tail
          ([byte], rest)
        else takeEscape rest
      let (bytes, stop) := expand fuel rest
      (escape ++ bytes, stop)

/-- What printing arguments one after the other prints. -/
def echo (arguments : List Text) : Bytes :=
  let (withoutEnd, printed) : Bool × List Text :=
    match arguments with
    | first :: rest => if first = ("-n" : Text) then (true, rest) else (false, arguments)
    | [] => (false, [])
  let t := Text.joined " " printed
  let (bytes, stop) := expand (t.length + 1) t
  if withoutEnd || stop then bytes else bytes ++ [0x0A]

/-- How a conversion pads: to the left or with zeros, to which width, cut at which length. -/
structure Padding where
  left : Bool
  zeros : Bool
  width : Nat
  precision : Option Nat

/-- A text padded to its width. -/
def Padding.apply (p : Padding) (t : Text) : Text :=
  let missing := p.width - t.length
  if p.left then t ++ List.replicate missing 0x20
  else if p.zeros then List.replicate missing 0x30 ++ t
  else List.replicate missing 0x20 ++ t

/-- The number at the start of a text, and the rest. -/
def takeNumber (t : Text) : Nat × Text :=
  let digits := t.takeWhile CodePoint.isAsciiDigit
  (digits.foldl (fun n c => 10 * n + (c.val - 0x30)) 0, t.drop digits.length)

/-- The padding of a conversion, and the rest. -/
def takePadding (t : Text) : Padding × Text :=
  let isFlag (c : CodePoint) : Bool := c = '-' || c = '0' || c = '+' || c = ' ' || c = '#'
  let flags := t.takeWhile isFlag
  let (width, rest) := takeNumber (t.dropWhile isFlag)
  let left := flags.contains 0x2D
  let zeros := flags.contains 0x30
  match rest with
  | c :: after =>
    if c = '.' then
      let (precision, rest) := takeNumber after
      (⟨left, zeros, width, some precision⟩, rest)
    else (⟨left, zeros, width, none⟩, rest)
  | [] => (⟨left, zeros, width, none⟩, [])

/-- The number of an argument; zero if it is none. -/
def numberOf (argument : Text) : Int :=
  match Decimal.whole argument with
  | .ok n => n
  | .error _ => 0

/-- The digits of a number in some base. -/
def digitsIn (base : Nat) (n : Int) : Text := (Nat.toDigits base n.toNat).map CodePoint.ofChar

/-- What a conversion prints of an argument. -/
def convert (kind : CodePoint) (p : Padding) (argument : Text) : Bytes :=
  if kind = 'b' then (expand (argument.length + 1) argument).1
  else
    let t : Text :=
      if kind = 'c' then argument.take 1
      else if kind = 'd' ∨ kind = 'i' ∨ kind = 'u' then Text.ofInt (numberOf argument)
      else if kind = 'x' then digitsIn 16 (numberOf argument)
      else if kind = 'X' then (digitsIn 16 (numberOf argument)).map CodePoint.asciiUpper
      else if kind = 'o' then digitsIn 8 (numberOf argument)
      else match p.precision with
        | some n => argument.take n
        | none => argument
    (p.apply t).flatMap Utf8.encodePoint

/-- What one pass over a format prints, and the arguments that are left. -/
def pass : Nat → Text → List Text → Bytes × List Text
  | 0, _, arguments | _, [], arguments => ([], arguments)
  | fuel + 1, c :: rest, arguments =>
    if c = '\\' then
      let (escape, rest) := if rest.head? = some '"' then ([0x22], rest.tail) else takeEscape rest
      let (bytes, left) := pass fuel rest arguments
      (escape ++ bytes, left)
    else if c = '%' then
      if rest.head? = some '%' then
        let (bytes, left) := pass fuel rest.tail arguments
        (0x25 :: bytes, left)
      else
        let (padding, rest) := takePadding rest
        match rest with
        | [] => ([0x25], arguments)
        | kind :: rest =>
          let (bytes, left) := pass fuel rest arguments.tail
          (convert kind padding (arguments.headD []) ++ bytes, left)
    else
      let (bytes, left) := pass fuel rest arguments
      (Utf8.encodePoint c ++ bytes, left)

/-- What a format prints; it is used again as long as it takes arguments and some are left. -/
def passes (format : Text) : Nat → List Text → Bytes
  | 0, _ => []
  | fuel + 1, arguments =>
    let (bytes, left) := pass (format.length + 1) format arguments
    if left.isEmpty || left.length = arguments.length then bytes
    else bytes ++ passes format fuel left

/-- What printing arguments with a format prints. -/
def printf (format : Text) (arguments : List Text) : Bytes :=
  passes format (arguments.length + 1) arguments

end ModulePackaging.Shell.Printing
