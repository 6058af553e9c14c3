import ModulePackaging.Text.Codec

/-!
# Base 64

Three bytes as four letters of 64, the last group filled up with `=`. Reading is strict about what
stands where, save that a whole group may be followed by one more `=`, and that the bits of the
last letter which belong to no byte are ignored.
-/

namespace ModulePackaging.Base64

/-- Why a text is not base 64. -/
inductive Defect
  | unencodable (e : Unencodable)
  | leadingPadding
  | strayCharacter
  | discontinuousPadding
  | excessData
  | incorrectPadding
  | loneCharacter (characters : Nat)

/-- The defect in words. -/
def Defect.message : Defect → Text
  | .unencodable e => e.message
  | .leadingPadding => "Leading padding not allowed"
  | .strayCharacter => "Only base64 data is allowed"
  | .discontinuousPadding => "Discontinuous padding not allowed"
  | .excessData => "Excess data after padding"
  | .incorrectPadding => "Incorrect padding"
  | .loneCharacter characters =>
    "Invalid base64-encoded string: number of data characters (" ++ Text.ofNat characters ++
      ") cannot be 1 more than a multiple of 4"

/-- The letter of a number below 64. -/
def letter (n : Nat) : CodePoint :=
  CodePoint.ofNat <|
    if n < 26 then 0x41 + n else if n < 52 then 0x47 + n else if n < 62 then n - 4
    else if n = 62 then 0x2B else 0x2F

/-- The number of a letter. -/
def value? (b : UInt8) : Option Nat :=
  let n := b.toNat
  if 0x41 ≤ n ∧ n ≤ 0x5A then some (n - 0x41)
  else if 0x61 ≤ n ∧ n ≤ 0x7A then some (n - 0x47)
  else if 0x30 ≤ n ∧ n ≤ 0x39 then some (n + 4)
  else if n = 0x2B then some 62
  else if n = 0x2F then some 63
  else none

/-- The sign that fills up the last group. -/
def padding : CodePoint := 0x3D

/-- The letters of bytes. -/
def encode : Bytes → Text
  | [] => []
  | [a] => [letter (a.toNat / 4), letter (a.toNat % 4 * 16), padding, padding]
  | [a, b] =>
    [letter (a.toNat / 4), letter (a.toNat % 4 * 16 + b.toNat / 16),
      letter (b.toNat % 16 * 4), padding]
  | a :: b :: c :: rest =>
    letter (a.toNat / 4) :: letter (a.toNat % 4 * 16 + b.toNat / 16) ::
      letter (b.toNat % 16 * 4 + c.toNat / 64) :: letter (c.toNat % 64) :: encode rest

/-- Where the reader stands: how many letters of the group are read, the bits of the last one that
belong to the next byte, the signs of padding in the group, and the bytes so far (the latest
first). -/
structure State where
  letters : Nat
  bits : Nat
  pads : Nat
  padded : Bool
  read : Bytes

/-- The state after a letter. -/
def State.next (s : State) (n : Nat) : State :=
  match s.letters with
  | 0 => ⟨1, n, 0, s.padded, s.read⟩
  | 1 => ⟨2, n % 16, 0, s.padded, (s.bits * 4 + n / 16).toUInt8 :: s.read⟩
  | 2 => ⟨3, n % 4, 0, s.padded, (s.bits * 16 + n / 4).toUInt8 :: s.read⟩
  | _ => ⟨0, 0, 0, s.padded, (s.bits * 64 + n).toUInt8 :: s.read⟩

/-- Reads on from a state. -/
def decodeFrom (s : State) : Bytes → Except Defect Bytes
  | [] =>
    match s.letters with
    | 0 => .ok s.read.reverse
    | 1 => .error (.loneCharacter (s.read.length / 3 * 4 + 1))
    | _ => .error .incorrectPadding
  | b :: rest =>
    if b = 0x3D then
      if s.letters ≥ 2 then
        if s.letters + s.pads + 1 ≥ 4 then
          if rest.isEmpty then .ok s.read.reverse else .error .excessData
        else decodeFrom { s with pads := s.pads + 1, padded := true } rest
      else decodeFrom { s with padded := true } rest
    else match value? b with
      | none => .error .strayCharacter
      | some n => if s.padded then .error .discontinuousPadding else decodeFrom (s.next n) rest

/-- The bytes that letters stand for. -/
def decodeBytes (letters : Bytes) : Except Defect Bytes :=
  if letters.head? == some 0x3D then .error .leadingPadding
  else decodeFrom ⟨0, 0, 0, false, []⟩ letters

/-- The bytes that a text stands for. -/
def decode (t : Text) : Except Defect Bytes :=
  match t.asciiBytes with
  | .error e => .error (.unencodable e)
  | .ok letters => decodeBytes letters

end ModulePackaging.Base64
