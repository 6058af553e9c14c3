import ModulePackaging.Zip.Error

/-!
# Unpacking compressed members

The format in which members may be compressed: blocks of bytes that are stored, or of codes for
bytes and for repetitions of what came before. Data that ends early gives what can be unpacked of
it; data that no compressor writes is refused.
-/

namespace ModulePackaging.Zip.Inflate

/-- The bits that are still to be read: those of the current byte, then the bytes after it. -/
structure Bits where
  current : Nat
  left : Nat
  rest : Bytes

/-- Why unpacking stops before the end of the data. -/
inductive Stop
  | starved
  | defect (what : InflateDefect)

/-- The next bit. -/
def nextBit (bits : Bits) : Except Stop (Nat × Bits) :=
  match bits.left, bits.rest with
  | 0, [] => .error .starved
  | 0, b :: rest => .ok (b.toNat % 2, ⟨b.toNat / 2, 7, rest⟩)
  | left + 1, rest => .ok (bits.current % 2, ⟨bits.current / 2, left, rest⟩)

/-- The number that the next `n` bits spell, the lowest first. -/
def nextBits : Nat → Bits → Except Stop (Nat × Bits)
  | 0, bits => .ok (0, bits)
  | n + 1, bits => do
    let (bit, bits) ← nextBit bits
    let (high, bits) ← nextBits n bits
    return (bit + 2 * high, bits)

/-- A code: how many symbols have a code of each length from one on, and the symbols in the order
of their codes. -/
structure Code where
  counts : List Nat
  symbols : Array Nat

/-- The longest length of a code. -/
def longest : Nat := 15

/-- The code that gives each symbol a code of the listed length; length zero means none. -/
def Code.ofLengths (lengths : List Nat) : Code :=
  let numbered := lengths.zipIdx
  let ofLength (n : Nat) := (numbered.filter fun (length, _) => length == n).map Prod.snd
  let groups := (List.range longest).map fun n => ofLength (n + 1)
  ⟨groups.map List.length, groups.flatten.toArray⟩

/-- How many codes of the longest length a code leaves free; none if it has too many codes. -/
def Code.unused? (code : Code) : Option Nat :=
  code.counts.foldl
    (fun free count => do
      let free := 2 * (← free)
      if count ≤ free then some (free - count) else none)
    (some 1)

/-- The greatest length that has a code. -/
def Code.greatest (code : Code) : Nat :=
  longest - (code.counts.reverse.takeWhile (· == 0)).length

/-- Whether a code can be used: with all its codes in use, or with no code, or with one of one bit
where `single` allows that. -/
def Code.isUsable (code : Code) (single : Bool) : Bool :=
  match code.unused? with
  | none => false
  | some 0 => true
  | some _ => code.greatest == 0 || (single && code.greatest == 1)

/-- Reads a symbol bit by bit: `value` is the code read so far less the first code of its length,
`skipped` the number of symbols with shorter codes. `none` for bits that are no code. -/
def symbolFrom (code : Code) :
    List Nat → Nat → Nat → Bits → Except Stop (Option Nat × Bits)
  | [], _, _, bits => .ok (none, bits)
  | count :: counts, value, skipped, bits => do
    let (bit, bits) ← nextBit bits
    let value := 2 * value + bit
    if value < count then return (code.symbols[skipped + value]?, bits)
    else symbolFrom code counts (value - count) (skipped + count) bits

/-- Reads a symbol; `none` after as many bits as the longest code has, or one if there is none. -/
def nextSymbol (code : Code) (bits : Bits) : Except Stop (Option Nat × Bits) :=
  symbolFrom code (code.counts.take (max 1 code.greatest)) 0 0 bits

/-- The least length of each code for a length, and how many bits more it takes. -/
def lengthCodes : List (Nat × Nat) := [
  (3, 0), (4, 0), (5, 0), (6, 0), (7, 0), (8, 0), (9, 0), (10, 0), (11, 1), (13, 1), (15, 1),
  (17, 1), (19, 2), (23, 2), (27, 2), (31, 2), (35, 3), (43, 3), (51, 3), (59, 3), (67, 4),
  (83, 4), (99, 4), (115, 4), (131, 5), (163, 5), (195, 5), (227, 5), (258, 0)]

/-- The least distance of each code for a distance, and how many bits more it takes. -/
def distanceCodes : List (Nat × Nat) := [
  (1, 0), (2, 0), (3, 0), (4, 0), (5, 1), (7, 1), (9, 2), (13, 2), (17, 3), (25, 3), (33, 4),
  (49, 4), (65, 5), (97, 5), (129, 6), (193, 6), (257, 7), (385, 7), (513, 8), (769, 8),
  (1025, 9), (1537, 9), (2049, 10), (3073, 10), (4097, 11), (6145, 11), (8193, 12), (12289, 12),
  (16385, 13), (24577, 13)]

/-- Appends `n` bytes, each a copy of the one `distance` before it. -/
def copyBack (distance : Nat) : Nat → Array UInt8 → Array UInt8
  | 0, out => out
  | n + 1, out => copyBack distance n (out.push (out.getD (out.size - distance) 0))

/-- What a step leaves: the output, the bits after it, and why it stopped if it had to. -/
structure Progress where
  out : Array UInt8
  bits : Bits
  stop : Option Stop

/-- The repetition that a code for a length announces: length and distance. -/
def repetition (distances : Code) (written symbol : Nat) (bits : Bits) :
    Except Stop (Nat × Nat × Bits) := do
  match lengthCodes[symbol - 257]? with
  | none => throw (.defect .literalCode)
  | some (leastLength, extra) =>
    let (more, bits) ← nextBits extra bits
    let (code, bits) ← nextSymbol distances bits
    match code.bind (distanceCodes[·]?) with
    | none => throw (.defect .distanceCode)
    | some (leastDistance, extra) =>
      let (further, bits) ← nextBits extra bits
      let distance := leastDistance + further
      if distance > written then throw (.defect .distanceTooFar)
      else return (leastLength + more, distance, bits)

/-- Unpacks codes up to the end of a block; the fuel bounds their number. -/
def codes (literals distances : Code) : Nat → Array UInt8 → Bits → Progress
  | 0, out, bits => ⟨out, bits, some .starved⟩
  | fuel + 1, out, bits =>
    match nextSymbol literals bits with
    | .error stop => ⟨out, bits, some stop⟩
    | .ok (none, bits) => ⟨out, bits, some (.defect .literalCode)⟩
    | .ok (some symbol, next) =>
      if symbol < 256 then codes literals distances fuel (out.push symbol.toUInt8) next
      else if symbol = 256 then ⟨out, next, none⟩
      else match repetition distances out.size symbol next with
        | .error stop => ⟨out, bits, some stop⟩
        | .ok (length, distance, next) =>
          codes literals distances fuel (copyBack distance length out) next

/-- The code for bytes and lengths of blocks that bring none. -/
def fixedLiterals : Code :=
  .ofLengths (List.replicate 144 8 ++ List.replicate 112 9 ++ List.replicate 24 7 ++
    List.replicate 8 8)

/-- The code for distances of blocks that bring none. -/
def fixedDistances : Code := .ofLengths (List.replicate 32 5)

/-- The order in which the lengths of the code for lengths come. -/
def lengthOrder : List Nat := [16, 17, 18, 0, 8, 7, 9, 6, 10, 5, 11, 4, 12, 3, 13, 2, 14, 1, 15]

/-- Reads `n` numbers of three bits. -/
def threeBits : Nat → Bits → Except Stop (List Nat × Bits)
  | 0, bits => .ok ([], bits)
  | n + 1, bits => do
    let (first, bits) ← nextBits 3 bits
    let (others, bits) ← threeBits n bits
    return (first :: others, bits)

/-- Reads `wanted` lengths of codes, with repetitions, after those in `read` (the latest first). -/
def codeLengths (code : Code) (wanted : Nat) :
    Nat → List Nat → Bits → Except Stop (List Nat × Bits)
  | 0, read, bits => .ok (read.reverse, bits)
  | fuel + 1, read, bits =>
    if wanted ≤ read.length then .ok (read.reverse, bits)
    else do
      let (symbol, bits) ← nextSymbol code bits
      let symbol := symbol.getD 0
      if symbol < 16 then codeLengths code wanted fuel (symbol :: read) bits
      else
        let (value, least, extra) :=
          if symbol = 16 then (read.head?, 3, 2)
          else if symbol = 17 then (some 0, 3, 3)
          else (some 0, 11, 7)
        let (more, bits) ← nextBits extra bits
        match value with
        | none => throw (.defect .lengthRepeat)
        | some value =>
          if read.length + least + more > wanted then throw (.defect .lengthRepeat)
          else codeLengths code wanted fuel (List.replicate (least + more) value ++ read) bits

/-- Reads the two codes that a block brings. -/
def blockCodes (bits : Bits) : Except Stop (Code × Code × Bits) := do
  let (literals, bits) ← nextBits 5 bits
  let (distances, bits) ← nextBits 5 bits
  let (lengths, bits) ← nextBits 4 bits
  if literals + 257 > 286 ∨ distances + 1 > 30 then throw (.defect .tooManySymbols)
  let (given, bits) ← threeBits (lengths + 4) bits
  let order := lengthOrder.zip given
  let lengthCode := Code.ofLengths ((List.range 19).map fun n => (order.lookup n).getD 0)
  if !lengthCode.isUsable false then throw (.defect .codeLengths)
  let wanted := literals + 257 + distances + 1
  let (all, bits) ← codeLengths lengthCode wanted wanted [] bits
  if all.getD 256 0 = 0 then throw (.defect .missingEnd)
  let literalCode := Code.ofLengths (all.take (literals + 257))
  if !literalCode.isUsable true then throw (.defect .literalLengths)
  let distanceCode := Code.ofLengths (all.drop (literals + 257))
  if !distanceCode.isUsable true then throw (.defect .distanceLengths)
  return (literalCode, distanceCode, bits)

/-- Copies a stored block, which starts at a whole byte. -/
def stored (out : Array UInt8) (bits : Bits) : Progress :=
  match bits.rest with
  | a :: b :: c :: d :: rest =>
    let size := a.toNat + 256 * b.toNat
    if size + c.toNat + 256 * d.toNat ≠ 0xFFFF then
      ⟨out, bits, some (.defect .storedLengths)⟩
    else
      let content := rest.take size
      ⟨out ++ content.toArray, ⟨0, 0, rest.drop size⟩,
        if content.length < size then some .starved else none⟩
  | _ => ⟨out, bits, some .starved⟩

/-- Unpacks one block of a kind. -/
def block (kind : Nat) (fuel : Nat) (out : Array UInt8) (bits : Bits) : Progress :=
  match kind with
  | 0 => stored out bits
  | 1 => codes fixedLiterals fixedDistances fuel out bits
  | 2 =>
    match blockCodes bits with
    | .error stop => ⟨out, bits, some stop⟩
    | .ok (literals, distances, bits) => codes literals distances fuel out bits
  | _ => ⟨out, bits, some (.defect .blockType)⟩

/-- Unpacks blocks up to the last one; `codeFuel` bounds the codes in a block. -/
def blocks (codeFuel : Nat) : Nat → Array UInt8 → Bits → Progress
  | 0, out, bits => ⟨out, bits, some .starved⟩
  | fuel + 1, out, bits =>
    match nextBits 3 bits with
    | .error stop => ⟨out, bits, some stop⟩
    | .ok (header, bits) =>
      let progress := block (header / 2) codeFuel out bits
      if progress.stop.isSome || header % 2 == 1 then progress
      else blocks codeFuel fuel progress.out progress.bits

/-- What can be unpacked of compressed data, and whether its end was reached. -/
def unpack (data : Bytes) : Except InflateDefect (Bytes × Bool) :=
  let fuel := 8 * data.length + 1
  let progress := blocks fuel fuel #[] ⟨0, 0, data⟩
  match progress.stop with
  | some (.defect what) => .error what
  | some .starved => .ok (progress.out.toList, false)
  | none => .ok (progress.out.toList, true)

end ModulePackaging.Zip.Inflate
