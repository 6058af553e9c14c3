import ModulePackaging.Curve.Edwards
import ModulePackaging.Curve.P256
import ModulePackaging.Signing.Der
import ModulePackaging.Encoding.Base64
import ModulePackaging.Fault

/-!
# Signing keys

The two signature schemes, keys that sign with them, and the check of a signature by the public
identity of the signer. An identity has a short name, made of the scheme and the digest of the
identity.
-/

namespace ModulePackaging

/-- A signature scheme. -/
inductive Algorithm
  | ed25519
  | ecdsaP256
  deriving DecidableEq

namespace Algorithm

/-- All schemes. -/
def all : List Algorithm := [.ed25519, .ecdsaP256]

/-- The name of a scheme. -/
def name : Algorithm → Text
  | ed25519 => "ed25519"
  | ecdsaP256 => "ecdsa-p256-sha256"

/-- The scheme with a name. -/
def ofName? (t : Text) : Option Algorithm := all.find? fun algorithm => algorithm.name == t

/-- The refusal of a name. -/
def unsupported (t : Text) : Text := "unsupported signature algorithm " ++ t.quoted

/-- The scheme with a name, or the refusal. -/
def ofName (t : Text) : Except Fault Algorithm :=
  match ofName? t with
  | some algorithm => .ok algorithm
  | none => .error (.badValue (unsupported t))

end Algorithm

/-- The short name of an identity: the scheme and the digest of the identity. -/
def identityName (scheme : Text) (identity : Bytes) : Text :=
  scheme ++ ":" ++ Base64.encode (Sha256.digest identity)

/-- A key that signs: the seed of an Edwards key, or the secret number of one on P-256. -/
inductive SigningKey
  | ed25519 (seed : Bytes)
  | ecdsaP256 (secret : Nat)
  deriving DecidableEq

namespace SigningKey

/-- The size of a seed. -/
def seedSize : Nat := 32

/-- A problem with a signing key. -/
def problem (message : Text) : Problem := .of .signingKey message

/-- The key of a seed. -/
def ofSeed (seed : Bytes) : Except Problem SigningKey :=
  if seed.length = seedSize then .ok (.ed25519 seed)
  else .error (problem "ed25519 private key seed must be 32 bytes")

/-- The scheme of a key. -/
def algorithm : SigningKey → Algorithm
  | ed25519 _ => .ed25519
  | ecdsaP256 _ => .ecdsaP256

/-- The public identity of a key: the public key, on P-256 in its short form. -/
def identity : SigningKey → Bytes
  | ed25519 seed => Edwards.publicKey seed
  | ecdsaP256 secret => P256.publicKey secret

/-- The short name of a key's identity. -/
def kid (key : SigningKey) : Text := identityName key.algorithm.name key.identity

/-- The signature of a message. -/
def sign (key : SigningKey) (message : Bytes) : Bytes :=
  match key with
  | ed25519 seed => Edwards.sign seed message
  | ecdsaP256 secret =>
    let (r, s) := P256.sign secret message
    Der.pair r s

/-- A key as a message shows it, without its secret. -/
def display (key : SigningKey) : Text :=
  "SigningKey(algorithm=" ++ key.algorithm.name.quoted ++ ", kid=" ++ key.kid.quoted ++ ")"

end SigningKey

/-- Whether a signature of a message is by the owner of an identity. -/
def verifySignature (algorithm : Algorithm) (identity message signature : Bytes) : Bool :=
  match algorithm with
  | .ed25519 => Edwards.verify identity message signature
  | .ecdsaP256 =>
    match Der.pair? signature with
    | some (r, s) => P256.verify identity message r s
    | none => false

end ModulePackaging
