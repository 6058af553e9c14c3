import ModulePackaging.Text.Digit
import ModulePackaging.Text.Blank
import ModulePackaging.Text.Quoted

/-!
# Whole numbers in decimal notation

Reads a whole number from a text: blanks around it, a sign, and digits of any script, with single
underscores between them. A number of more than 4300 digits is neither read nor written.
-/

namespace ModulePackaging.Decimal

/-- The most digits that a number may be read from or written with. -/
def digitLimit : Nat := 4300

/-- Whether a number has more digits than may be written. -/
def isLong (n : Int) : Bool := digitLimit < (Text.ofNat n.natAbs).length

/-- The refusal to write a number in words. -/
def longMessage : Text :=
  "Exceeds the limit (4300 digits) for integer string conversion; " ++
    "use sys.set_int_max_str_digits() to increase the limit"

/-- Why a text is no whole number. -/
inductive WholeError
  | notWhole (text : Text)
  | tooLong (digits : Nat)
  deriving DecidableEq

/-- The refusal in words; a text that is long when quoted is cut. -/
def WholeError.message : WholeError → Text
  | .notWhole text => "invalid literal for int() with base 10: " ++ text.quoted.take 200
  | .tooLong digits =>
    "Exceeds the limit (4300 digits) for integer string conversion: value has " ++
      Text.ofNat digits ++ " digits; use sys.set_int_max_str_digits() to increase the limit"

/-- The number that digits stand for, the most significant first. -/
def ofDigits (digits : List Nat) : Nat := digits.foldl (fun n d => 10 * n + d) 0

/-- The digits at the start of a text and what follows them. An underscore must stand between two
digits; `none` if it does not, or if there is no digit. -/
def takeDigits? (underscore : Bool) (read : List Nat) : Text → Option (List Nat × Text)
  | [] => if underscore then none else some (read.reverse, [])
  | c :: rest =>
    match c.decimalValue? with
    | some d => takeDigits? false (d :: read) rest
    | none =>
      if c = '_' then if underscore || read.isEmpty then none else takeDigits? true read rest
      else if underscore then none else some (read.reverse, c :: rest)

/-- The blanks around a number; the ASCII separators of records are not among them. -/
def isNumberBlank (c : CodePoint) : Bool :=
  c.isBlank && !(0x1C ≤ c.val && c.val ≤ 0x1F)

/-- Takes the sign from a text: whether it is a minus, and what follows. -/
def takeSign : Text → Bool × Text
  | [] => (false, [])
  | c :: rest =>
    if c = '-' then (true, rest) else if c = '+' then (false, rest) else (false, c :: rest)

/-- The number of a text that holds only digits, at most 4300 of them. -/
def natural (t : Text) : Except WholeError Nat :=
  match t.mapM CodePoint.decimalValue? with
  | none => .error (.notWhole t)
  | some [] => .error (.notWhole t)
  | some digits =>
    if digits.length > digitLimit then .error (.tooLong digits.length) else .ok (ofDigits digits)

/-- The whole number that a text holds. -/
def whole (t : Text) : Except WholeError Int :=
  let (negative, unsigned) := takeSign (t.dropWhile isNumberBlank)
  match takeDigits? false [] unsigned with
  | none | some ([], _) => .error (.notWhole t)
  | some (digits, rest) =>
    if digits.length > digitLimit then .error (.tooLong digits.length)
    else if rest.all isNumberBlank then
      .ok (if negative then - (ofDigits digits : Int) else ofDigits digits)
    else .error (.notWhole t)

end ModulePackaging.Decimal
