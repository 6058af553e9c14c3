import ModulePackaging.Curve.Residue
import ModulePackaging.Digest.Sha512

/-!
# Signatures on the curve P-256

Points of the curve `y² = x³ - 3x + b` over a prime field, and signatures of SHA-256 digests with
them. The number that a signature hides is drawn from the key and the digest, so signing needs no
source of chance and the same message has one signature.
-/

namespace ModulePackaging.P256

open Residue

/-- The size of the field. -/
def field : Nat := 0xFFFFFFFF00000001000000000000000000000000FFFFFFFFFFFFFFFFFFFFFFFF

/-- The order of the base point. -/
def order : Nat := 0xFFFFFFFF00000000FFFFFFFFFFFFFFFFBCE6FAADA7179E84F3B9CAC2FC632551

/-- The constant of the curve. -/
def constant : Nat := 0x5AC635D8AA3A93E7B3EBBD55769886BC651D06B0CC53B0F63BCE3C3E27D2604B

/-- A point: `x = X / Z²`, `y = Y / Z³`; the neutral point has `Z = 0`. -/
structure Point where
  x : Nat
  y : Nat
  z : Nat

/-- The neutral point. -/
def neutral : Point := ⟨1, 1, 0⟩

/-- The base point. -/
def base : Point :=
  ⟨0x6B17D1F2E12C4247F8BCE6E563A440F277037D812DEB33A0F4A13945D898C296,
    0x4FE342E2FE1A7F9B8EE7EB4A7C0F9E162BCE33576B315ECECBB6406837BF51F5, 1⟩

/-- A point added to itself. -/
def double (p : Point) : Point :=
  if p.z = 0 then neutral
  else
    let y2 := p.y * p.y % field
    let z2 := p.z * p.z % field
    let s := 4 * p.x * y2 % field
    let m := 3 * minus field p.x z2 % field * (p.x + z2) % field
    let x := minus field (m * m % field) (2 * s % field)
    let y := minus field (m * minus field s x % field) (8 * y2 * y2 % field)
    ⟨x, y, 2 * p.y * p.z % field⟩

/-- The sum of two points. -/
def add (p q : Point) : Point :=
  if p.z = 0 then q
  else if q.z = 0 then p
  else
    let pz2 := p.z * p.z % field
    let qz2 := q.z * q.z % field
    let u := p.x * qz2 % field
    let v := q.x * pz2 % field
    let s := p.y * qz2 % field * q.z % field
    let t := q.y * pz2 % field * p.z % field
    if u = v then if s = t then double p else neutral
    else
      let h := minus field v u
      let r := minus field t s
      let h2 := h * h % field
      let h3 := h2 * h % field
      let uh2 := u * h2 % field
      let x := minus field (minus field (r * r % field) h3) (2 * uh2 % field)
      let y := minus field (r * minus field uh2 x % field) (s * h3 % field)
      ⟨x, y, h * p.z % field * q.z % field⟩

/-- A point added to itself `n` times. -/
def multiply (n : Nat) (p : Point) : Point :=
  (bits n).foldl (fun sum bit => if bit then add (double sum) p else double sum) neutral

/-- The coordinates of a point that is not neutral. -/
def coordinates (p : Point) : Nat × Nat :=
  let inverseZ := inverse field p.z
  let inverseZ2 := inverseZ * inverseZ % field
  (p.x * inverseZ2 % field, p.y * inverseZ2 % field * inverseZ % field)

/-- What the square of `y` has to be at `x`. -/
def squareAt (x : Nat) : Nat :=
  (minus field (x * x % field * x % field) (3 * x % field) + constant) % field

/-- The bytes of a point: whether `y` is odd, and `x`. -/
def compressed (p : Point) : Bytes :=
  let (x, y) := coordinates p
  (if y % 2 = 0 then 0x02 else 0x03) :: Sha256.bigEndian 32 x

/-- The bytes of both coordinates of a point. -/
def uncompressed (p : Point) : Bytes :=
  let (x, y) := coordinates p
  0x04 :: (Sha256.bigEndian 32 x ++ Sha256.bigEndian 32 y)

/-- The point with a coordinate `x`, and `y` odd or even. -/
def lift? (x : Nat) (odd : Bool) : Option Point :=
  let y2 := squareAt x
  let y := power field y2 ((field + 1) / 4)
  if x < field ∧ y * y % field = y2 then
    let matched := if (y % 2 == 1) == odd then y else (field - y) % field
    if (matched % 2 == 1) == odd then some ⟨x, matched, 1⟩ else none
  else none

/-- The point of bytes in one of the two forms. -/
def decode? : Bytes → Option Point
  | [] => none
  | form :: rest =>
    if form = 0x02 ∨ form = 0x03 then
      if rest.length = 32 then lift? (Sha512.ofBigEndian rest) (form == 0x03) else none
    else if form = 0x04 ∧ rest.length = 64 then
      let x := Sha512.ofBigEndian (rest.take 32)
      let y := Sha512.ofBigEndian (rest.drop 32)
      if x < field ∧ y < field ∧ y * y % field = squareAt x then some ⟨x, y, 1⟩ else none
    else none

/-- The public key of a secret number. -/
def publicKey (secret : Nat) : Bytes := compressed (multiply secret base)

/-- The digest of a message as a number. -/
def digestNumber (message : Bytes) : Nat := Sha512.ofBigEndian (Sha256.digest message)

/-- A keyed digest of a message. -/
def keyedDigest (key message : Bytes) : Bytes :=
  let block := key ++ List.replicate (64 - key.length) 0
  Sha256.digest (block.map (· ^^^ 0x5C) ++ Sha256.digest (block.map (· ^^^ 0x36) ++ message))

/-- Draws numbers until one is in range; the fuel bounds the attempts. -/
def draw : Nat → Bytes → Bytes → Nat
  | 0, _, _ => 1
  | fuel + 1, key, value =>
    let value := keyedDigest key value
    let k := Sha512.ofBigEndian value
    if 1 ≤ k ∧ k < order then k
    else
      let key := keyedDigest key (value ++ [0x00])
      draw fuel key (keyedDigest key value)

/-- The hidden number of a signature, drawn from the secret and the digest. -/
def hiddenNumber (secret digest : Nat) : Nat :=
  let material := Sha256.bigEndian 32 secret ++ Sha256.bigEndian 32 (digest % order)
  let start := List.replicate 32 (0x01 : UInt8)
  let key := keyedDigest (List.replicate 32 0) (start ++ [0x00] ++ material)
  let value := keyedDigest key start
  let key := keyedDigest key (value ++ [0x01] ++ material)
  draw 100 key (keyedDigest key value)

/-- The two numbers of the signature of a message by a secret number. -/
def sign (secret : Nat) (message : Bytes) : Nat × Nat :=
  let e := digestNumber message
  let k := hiddenNumber secret e
  let r := (coordinates (multiply k base)).1 % order
  (r, inverse order k * ((e + r * secret) % order) % order)

/-- Whether two numbers are a signature of a message by the owner of a public key. -/
def verify (key message : Bytes) (r s : Nat) : Bool :=
  match decode? key with
  | none => false
  | some q =>
    if r = 0 ∨ order ≤ r ∨ s = 0 ∨ order ≤ s then false
    else
      let w := inverse order s
      let sum := add (multiply (digestNumber message * w % order) base) (multiply (r * w % order) q)
      sum.z != 0 && (coordinates sum).1 % order == r

end ModulePackaging.P256
