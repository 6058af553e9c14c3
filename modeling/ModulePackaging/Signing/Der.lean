import ModulePackaging.Digest.Sha512

/-!
# Distinguished encoding

The encoding of keys and signatures: a value is a tag, a length and its content, and each value has
one encoding.
-/

namespace ModulePackaging.Der

/-- The tag of whole numbers. -/
def integerTag : UInt8 := 0x02

/-- The tag of strings of bits. -/
def bitsTag : UInt8 := 0x03

/-- The tag of strings of bytes. -/
def bytesTag : UInt8 := 0x04

/-- The tag of identifiers. -/
def identifierTag : UInt8 := 0x06

/-- The tag of sequences. -/
def sequenceTag : UInt8 := 0x30

/-- The bytes of a number without leading zeros, the most significant first. -/
def minimalBytes (n : Nat) : Bytes :=
  (Sha256.bigEndian (Nat.log2 n / 8 + 1) n).dropWhile (· == 0)

/-- The encoding of a length. -/
def length (n : Nat) : Bytes :=
  if n < 0x80 then [n.toUInt8]
  else
    let bytes := minimalBytes n
    (0x80 + bytes.length).toUInt8 :: bytes

/-- The encoding of a value. -/
def value (tag : UInt8) (content : Bytes) : Bytes := tag :: (length content.length ++ content)

/-- The encoding of a natural number; a zero in front keeps it from being negative. -/
def natural (n : Nat) : Bytes :=
  let bytes := minimalBytes n
  value integerTag
    (match bytes with
    | [] => [0x00]
    | b :: _ => if b ≥ 0x80 then 0x00 :: bytes else bytes)

/-- The encoding of a sequence. -/
def sequence (values : List Bytes) : Bytes := value sequenceTag values.flatten

/-- A length at the start of some bytes, and what follows it. -/
def takeLength? : Bytes → Option (Nat × Bytes)
  | [] => none
  | b :: rest =>
    if b < 0x80 then some (b.toNat, rest)
    else
      let size := b.toNat - 0x80
      if size = 0 ∨ size > 4 ∨ rest.length < size then none
      else
        let n := Sha512.ofBigEndian (rest.take size)
        if length n = b :: rest.take size then some (n, rest.drop size) else none

/-- The content of a value with a tag at the start of some bytes, and what follows the value. -/
def take? (tag : UInt8) : Bytes → Option (Bytes × Bytes)
  | [] => none
  | b :: rest =>
    if b ≠ tag then none
    else do
      let (size, rest) ← takeLength? rest
      if rest.length < size then none else some (rest.take size, rest.drop size)

/-- The content of a value with a tag that is all there is. -/
def whole? (tag : UInt8) (bytes : Bytes) : Option Bytes :=
  match take? tag bytes with
  | some (content, []) => some content
  | _ => none

/-- A natural number at the start of some bytes, and what follows it. -/
def takeNatural? (bytes : Bytes) : Option (Nat × Bytes) := do
  let (content, rest) ← take? integerTag bytes
  let n := Sha512.ofBigEndian content
  if natural n = value integerTag content then some (n, rest) else none

/-- The encoding of a pair of numbers, as which a signature is written. -/
def pair (r s : Nat) : Bytes := sequence [natural r, natural s]

/-- The pair of numbers of a signature. -/
def pair? (bytes : Bytes) : Option (Nat × Nat) := do
  let content ← whole? sequenceTag bytes
  let (r, rest) ← takeNatural? content
  let (s, rest) ← takeNatural? rest
  if rest.isEmpty then some (r, s) else none

end ModulePackaging.Der
