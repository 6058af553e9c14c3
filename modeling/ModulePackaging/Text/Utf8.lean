import ModulePackaging.Text.Codec

/-!
# UTF-8

Texts as bytes and back. Encoding fails exactly at a surrogate; decoding names the first byte that
fits no code point, and why.
-/

namespace ModulePackaging

namespace Utf8

/-- The bytes of one code point. -/
def encodePoint (c : CodePoint) : Bytes :=
  let n := c.val
  if n < 0x80 then [n.toUInt8]
  else if n < 0x800 then [(0xC0 + n / 0x40).toUInt8, (0x80 + n % 0x40).toUInt8]
  else if n < 0x10000 then
    [(0xE0 + n / 0x1000).toUInt8, (0x80 + n / 0x40 % 0x40).toUInt8, (0x80 + n % 0x40).toUInt8]
  else
    [(0xF0 + n / 0x40000).toUInt8, (0x80 + n / 0x1000 % 0x40).toUInt8,
      (0x80 + n / 0x40 % 0x40).toUInt8, (0x80 + n % 0x40).toUInt8]

/-- The bytes of a text without surrogates. -/
def encode (t : Text) : Except Unencodable Bytes :=
  match Codec.utf8.firstMissing? t with
  | some e => .error e
  | none => .ok (t.flatMap encodePoint)

/-- How many bytes follow a first byte, and the range that the next one is held to. -/
def form? (b : UInt8) : Option (Nat × UInt8 × UInt8) :=
  if b < 0x80 then some (0, 0x80, 0xBF)
  else if b < 0xC2 then none
  else if b < 0xE0 then some (1, 0x80, 0xBF)
  else if b = 0xE0 then some (2, 0xA0, 0xBF)
  else if b = 0xED then some (2, 0x80, 0x9F)
  else if b < 0xF0 then some (2, 0x80, 0xBF)
  else if b = 0xF0 then some (3, 0x90, 0xBF)
  else if b < 0xF4 then some (3, 0x80, 0xBF)
  else if b = 0xF4 then some (3, 0x80, 0x8F)
  else none

/-- The number of a code point whose first byte is followed by `following` more, read so far. -/
def lead (b : UInt8) (following : Nat) : Nat :=
  match following with
  | 0 => b.toNat
  | 1 => b.toNat % 0x20
  | 2 => b.toNat % 0x10
  | _ => b.toNat % 0x08

/-- A code point of which the bytes up to here are read: its first byte and where that stands, the
number so far, how many bytes were read and are missing, and the range the next one is held to. -/
structure Partial where
  first : UInt8
  start : Nat
  value : Nat
  sound : Nat
  missing : Nat
  low : UInt8
  high : UInt8

/-- Decodes the bytes from `position` on, after the code points in `read` (the latest first). -/
def decodeFrom (position : Nat) (read : Text) : Option Partial → Bytes → Except Undecodable Text
  | none, [] => .ok read.reverse
  | some p, [] => .error ⟨p.first, p.start, p.sound, .unexpectedEnd⟩
  | none, b :: rest =>
    match form? b with
    | none => .error ⟨b, position, 1, .invalidStart⟩
    | some (0, _, _) => decodeFrom (position + 1) (CodePoint.ofNat b.toNat :: read) none rest
    | some (missing, low, high) =>
      decodeFrom (position + 1) read
        (some ⟨b, position, lead b missing, 1, missing, low, high⟩) rest
  | some p, b :: rest =>
    if p.low ≤ b ∧ b ≤ p.high then
      let value := p.value * 0x40 + b.toNat % 0x40
      if p.missing ≤ 1 then decodeFrom (position + 1) (CodePoint.ofNat value :: read) none rest
      else
        decodeFrom (position + 1) read
          (some ⟨p.first, p.start, value, p.sound + 1, p.missing - 1, 0x80, 0xBF⟩) rest
    else .error ⟨p.first, p.start, p.sound, .invalidContinuation⟩

/-- The text that the bytes encode. -/
def decode (bytes : Bytes) : Except Undecodable Text := decodeFrom 0 [] none bytes

end Utf8

end ModulePackaging
