import ModulePackaging.Curve.Residue
import ModulePackaging.Digest.Sha512
import ModulePackaging.Power

/-!
# Ed25519

Signatures on the twisted Edwards curve over the field of `2 ^ 255 - 19`. A signature is a point and
a number below the order of the base point, and is checked by computing the point anew.
-/

namespace ModulePackaging.Edwards

open Residue

/-- The size of the field. -/
def field : Nat := 2 ^ 255 - 19

/-- The order of the base point. -/
def order : Nat := 2 ^ 252 + 27742317777372353535851937790883648493

/-- The coefficient of the curve. -/
def coefficient : Nat := (field - 121665) * inverse field 121666 % field

/-- A square root of minus one. -/
def rootOfMinusOne : Nat := power field 2 ((field - 1) / 4)

/-- A point in extended coordinates: `x = X / Z`, `y = Y / Z`, `x * y = T / Z`. -/
structure Point where
  x : Nat
  y : Nat
  z : Nat
  t : Nat

/-- The neutral point. -/
def neutral : Point := ⟨0, 1, 1, 0⟩

/-- The sum of two points. -/
def add (p q : Point) : Point :=
  let a := minus field p.y p.x * minus field q.y q.x % field
  let b := (p.y + p.x) * (q.y + q.x) % field
  let c := 2 * coefficient * p.t % field * q.t % field
  let d := 2 * p.z * q.z % field
  let e := minus field b a
  let f := minus field d c
  let g := (d + c) % field
  let h := (b + a) % field
  ⟨e * f % field, g * h % field, f * g % field, e * h % field⟩

/-- A point added to itself. -/
def double (p : Point) : Point :=
  let a := p.x * p.x % field
  let b := p.y * p.y % field
  let c := 2 * p.z * p.z % field
  let h := (a + b) % field
  let e := minus field h ((p.x + p.y) * (p.x + p.y) % field)
  let g := minus field a b
  let f := (c + g) % field
  ⟨e * f % field, g * h % field, f * g % field, e * h % field⟩

/-- A point added to itself `n` times. -/
def multiply (n : Nat) (p : Point) : Point :=
  (bits n).foldl (fun sum bit => if bit then add (double sum) p else double sum) neutral

/-- The point with the signs of its coordinates turned so that it cancels. -/
def negate (p : Point) : Point := ⟨(field - p.x) % field, p.y, p.z, (field - p.t) % field⟩

/-- The number that bytes spell, the least significant first. -/
def ofLittleEndian (bytes : Bytes) : Nat := Sha512.ofBigEndian bytes.reverse

/-- The 32 bytes of a number, the least significant first. -/
def littleEndian (n : Nat) : Bytes := (Sha256.bigEndian 32 n).reverse

/-- The bytes of a point: `y`, and in the highest bit whether `x` is odd. -/
def encode (p : Point) : Bytes :=
  let inverseZ := inverse field p.z
  let x := p.x * inverseZ % field
  let y := p.y * inverseZ % field
  littleEndian (y + x % 2 * 2 ^ 255)

/-- A square root of `u / v`, if there is one. -/
def rootOfQuotient? (u v : Nat) : Option Nat :=
  let v3 := v * v % field * v % field
  let v7 := v3 * v3 % field * v % field
  let root := u * v3 % field * power field (u * v7 % field) ((field - 5) / 8) % field
  let check := v * root % field * root % field
  if check = u then some root
  else if check = (field - u) % field then some (root * rootOfMinusOne % field)
  else none

/-- The point of 32 bytes. -/
def decode? (bytes : Bytes) : Option Point :=
  let n := ofLittleEndian bytes
  let odd := n / 2 ^ 255
  let y := n % 2 ^ 255 % field
  let y2 := y * y % field
  match rootOfQuotient? (minus field y2 1) ((coefficient * y2 + 1) % field) with
  | none => none
  | some root =>
    let x := if root % 2 = odd then root else (field - root) % field
    some ⟨x, y, 1, x * y % field⟩

/-- The base point. -/
def base : Point :=
  let x := 15112221349535400772501151409588531511454012693041857206046113283949847762202
  let y := 46316835694926478169428394003475163141307993866256225615783033603165251855960
  ⟨x, y, 1, x * y % field⟩

/-- The secret number of a seed, and the bytes that blind its signatures. -/
def expand (seed : Bytes) : Nat × Bytes :=
  let h := Sha512.digest seed
  let n := ofLittleEndian (h.take 32)
  (2 ^ 254 + n % 2 ^ 254 / 8 * 8, h.drop 32)

/-- The public key of a seed. -/
def publicKey (seed : Bytes) : Bytes := encode (multiply (expand seed).1 base)

/-- The digest of some bytes as a number below the order. -/
def challenge (bytes : Bytes) : Nat := ofLittleEndian (Sha512.digest bytes) % order

/-- The signature of a message by a seed. -/
def sign (seed message : Bytes) : Bytes :=
  let (secret, blind) := expand seed
  let r := challenge (blind ++ message)
  let point := encode (multiply r base)
  let k := challenge (point ++ publicKey seed ++ message)
  point ++ littleEndian ((r + k * secret) % order)

/-- Whether a signature of a message is by the owner of a public key. -/
def verify (key message signature : Bytes) : Bool :=
  if key.length != 32 || signature.length != 64 then false
  else
    let point := signature.take 32
    let s := ofLittleEndian (signature.drop 32)
    match decode? key with
    | none => false
    | some a =>
      let k := challenge (point ++ key ++ message)
      s < order && encode (add (multiply s base) (multiply k (negate a))) == point

end ModulePackaging.Edwards
