import ModulePackaging.Text.Quoted

/-!
# Texts as bytes: what can go wrong

The two encodings of texts in use, which code points each lacks, and the refusals of texts that
cannot be encoded and of bytes that cannot be decoded.
-/

namespace ModulePackaging

/-- An encoding of texts as bytes. The one of file names also takes the surrogates that stand for
bytes which are not UTF-8. -/
inductive Codec
  | ascii
  | utf8
  | fileName
  deriving DecidableEq

/-- A run of `extent` code points from `position` on, the first of them `point`, that the encoding
lacks. -/
structure Unencodable where
  codec : Codec
  point : CodePoint
  position : Nat
  extent : Nat

/-- Why bytes are not UTF-8. -/
inductive Utf8Defect
  | invalidStart
  | invalidContinuation
  | unexpectedEnd
  deriving DecidableEq

/-- The bytes from `position` on, `extent` of them, are not UTF-8; the first of them is `byte`. -/
structure Undecodable where
  byte : UInt8
  position : Nat
  extent : Nat
  defect : Utf8Defect

namespace Codec

/-- The name of an encoding. -/
def name : Codec → Text
  | ascii => "ascii"
  | utf8 | fileName => "utf-8"

/-- Whether a code point belongs to those that the encoding takes only in part, if at all. -/
def isOutside : Codec → CodePoint → Bool
  | ascii, c => 0x80 ≤ c.val
  | utf8, c | fileName, c => c.isSurrogate

/-- Whether the encoding has no form for a code point. -/
def lacks : Codec → CodePoint → Bool
  | ascii, c => 0x80 ≤ c.val
  | utf8, c => c.isSurrogate
  | fileName, c => c.isSurrogate && !(0xDC80 ≤ c.val && c.val ≤ 0xDCFF)

/-- Why a code point has no form. -/
def reason : Codec → Text
  | ascii => "ordinal not in range(128)"
  | utf8 | fileName => "surrogates not allowed"

/-- The first code point that the encoding lacks, with all behind it that are outside too. -/
def firstMissing? (codec : Codec) (t : Text) : Option Unencodable :=
  match t.dropWhile (!codec.lacks ·) with
  | [] => none
  | c :: rest =>
    let position := (t.takeWhile (!codec.lacks ·)).length
    some ⟨codec, c, position, 1 + (rest.takeWhile codec.isOutside).length⟩

end Codec

/-- The places from `position` on, `extent` of them. -/
def placesText (position extent : Nat) : Text :=
  "position " ++ Text.ofNat position ++
    (if extent ≤ 1 then ([] : Text) else "-" ++ Text.ofNat (position + extent - 1))

/-- A code point as its escape, whatever it shows. -/
def pointEscape (c : CodePoint) : Text :=
  if c.val < 0x100 then "\\x" ++ Text.hexDigits 2 c.val
  else if c.val < 0x10000 then "\\u" ++ Text.hexDigits 4 c.val
  else "\\U" ++ Text.hexDigits 8 c.val

/-- The refusal to encode in words. -/
def Unencodable.message (e : Unencodable) : Text :=
  "'" ++ e.codec.name ++ "' codec can't encode " ++
    (if e.extent ≤ 1 then ("character '" ++ pointEscape e.point ++ "' in " : Text)
      else "characters in ") ++
    placesText e.position e.extent ++ ": " ++ e.codec.reason

/-- A defect in words. -/
def Utf8Defect.message : Utf8Defect → Text
  | invalidStart => "invalid start byte"
  | invalidContinuation => "invalid continuation byte"
  | unexpectedEnd => "unexpected end of data"

/-- The refusal to decode in words. -/
def Undecodable.message (e : Undecodable) : Text :=
  "'utf-8' codec can't decode " ++
    (if e.extent ≤ 1 then ("byte 0x" ++ Text.hexDigits 2 e.byte.toNat ++ " in " : Text)
      else "bytes in ") ++
    placesText e.position e.extent ++ ": " ++ e.defect.message

/-- The bytes of an ASCII text. -/
def Text.asciiBytes (t : Text) : Except Unencodable Bytes :=
  match Codec.ascii.firstMissing? t with
  | some e => .error e
  | none => .ok (t.map fun c => c.val.toUInt8)

/-- The text of bytes below 128, if all are. -/
def Text.ofAsciiBytes? (bytes : Bytes) : Option Text :=
  if bytes.all (· < 0x80) then some (bytes.map fun b => CodePoint.ofNat b.toNat) else none

end ModulePackaging
