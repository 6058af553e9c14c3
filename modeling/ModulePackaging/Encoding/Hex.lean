import ModulePackaging.Text.Quoted

/-!
# Hexadecimal bytes

Bytes as pairs of hexadecimal digits. Blanks may stand between two bytes, not inside one; a text
that goes wrong is refused at the first place that does not fit, and one that holds something other
than ASCII at the first such place.
-/

namespace ModulePackaging.Hex

/-- The digits of bytes. -/
def encode (bytes : Bytes) : Text := bytes.flatMap fun b => Text.hexDigits 2 b.toNat

/-- The value of a hexadecimal digit. -/
def value? (c : CodePoint) : Option Nat :=
  if 0x30 ≤ c.val ∧ c.val ≤ 0x39 then some (c.val - 0x30)
  else if 0x61 ≤ c.val ∧ c.val ≤ 0x66 then some (c.val - 0x57)
  else if 0x41 ≤ c.val ∧ c.val ≤ 0x46 then some (c.val - 0x37)
  else none

/-- The blanks of ASCII. -/
def isSpace (c : CodePoint) : Bool := c.val == 0x20 || (0x09 ≤ c.val && c.val ≤ 0x0D)

/-- The bytes that the digits from `position` on stand for, after the bytes in `read` (the latest
first); `high` is the first digit of a byte whose second one is due. The error is a place. -/
def decodeFrom (position : Nat) (high : Option Nat) (read : Bytes) : Text → Except Nat Bytes
  | [] => if high.isSome then .error position else .ok read.reverse
  | c :: rest =>
    match high, value? c with
    | none, some h => decodeFrom (position + 1) (some h) read rest
    | some h, some l => decodeFrom (position + 1) none ((16 * h + l).toUInt8 :: read) rest
    | none, none =>
      if isSpace c then decodeFrom (position + 1) none read rest else .error position
    | some _, none => .error position

/-- The bytes that a text of hexadecimal digits stands for, or the place where it goes wrong. -/
def decode (t : Text) : Except Nat Bytes :=
  if t.any (0x80 ≤ ·.val) then .error (t.takeWhile (·.val < 0x80)).length
  else decodeFrom 0 none [] t

/-- The refusal at a place in words. -/
def message (position : Nat) : Text :=
  "non-hexadecimal number found in fromhex() arg at position " ++ Text.ofNat position

end ModulePackaging.Hex
