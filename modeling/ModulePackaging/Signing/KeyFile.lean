import ModulePackaging.Signing.Key
import ModulePackaging.Signing.Pem
import ModulePackaging.Workspace

/-!
# Key files

A key is kept in a file as the base 64 of its seed, or as an armoured private key. New keys of the
first scheme are written as seeds, those of the second one armoured.
-/

namespace ModulePackaging

/-- What an armoured private key holds. -/
inductive PrivateKey
  | ed25519 (seed : Bytes)
  | curve (name : Text) (secret : Nat)
  | other (kind : Text)

namespace PrivateKey

/-- The identifier of Ed25519. -/
def ed25519Id : Bytes := [0x2B, 0x65, 0x70]

/-- The identifier of keys on curves. -/
def curveKeyId : Bytes := [0x2A, 0x86, 0x48, 0xCE, 0x3D, 0x02, 0x01]

/-- The identifier of the curve P-256. -/
def p256Id : Bytes := [0x2A, 0x86, 0x48, 0xCE, 0x3D, 0x03, 0x01, 0x07]

/-- The name of the curve P-256. -/
def p256Name : Text := "secp256r1"

/-- The identifiers of curves, with their names. -/
def curves : List (Bytes × Text) := [
  (p256Id, p256Name),
  ([0x2A, 0x86, 0x48, 0xCE, 0x3D, 0x03, 0x01, 0x01], "secp192r1"),
  ([0x2B, 0x81, 0x04, 0x00, 0x21], "secp224r1"),
  ([0x2B, 0x81, 0x04, 0x00, 0x22], "secp384r1"),
  ([0x2B, 0x81, 0x04, 0x00, 0x23], "secp521r1"),
  ([0x2B, 0x81, 0x04, 0x00, 0x0A], "secp256k1"),
  ([0x2B, 0x24, 0x03, 0x03, 0x02, 0x08, 0x01, 0x01, 0x07], "brainpoolP256r1"),
  ([0x2B, 0x24, 0x03, 0x03, 0x02, 0x08, 0x01, 0x01, 0x0B], "brainpoolP384r1"),
  ([0x2B, 0x24, 0x03, 0x03, 0x02, 0x08, 0x01, 0x01, 0x0D], "brainpoolP512r1"),
  ([0x2B, 0x81, 0x04, 0x00, 0x01], "sect163k1"),
  ([0x2B, 0x81, 0x04, 0x00, 0x0F], "sect163r2"),
  ([0x2B, 0x81, 0x04, 0x00, 0x1A], "sect233k1"),
  ([0x2B, 0x81, 0x04, 0x00, 0x1B], "sect233r1"),
  ([0x2B, 0x81, 0x04, 0x00, 0x10], "sect283k1"),
  ([0x2B, 0x81, 0x04, 0x00, 0x11], "sect283r1"),
  ([0x2B, 0x81, 0x04, 0x00, 0x24], "sect409k1"),
  ([0x2B, 0x81, 0x04, 0x00, 0x25], "sect409r1"),
  ([0x2B, 0x81, 0x04, 0x00, 0x26], "sect571k1"),
  ([0x2B, 0x81, 0x04, 0x00, 0x27], "sect571r1")]

/-- The identifiers of other kinds of keys, with their names. -/
def others : List (Bytes × Text) := [
  ([0x2A, 0x86, 0x48, 0x86, 0xF7, 0x0D, 0x01, 0x01, 0x01], "RSAPrivateKey"),
  ([0x2A, 0x86, 0x48, 0x86, 0xF7, 0x0D, 0x01, 0x01, 0x0A], "RSAPrivateKey"),
  ([0x2A, 0x86, 0x48, 0xCE, 0x38, 0x04, 0x01], "DSAPrivateKey"),
  ([0x2A, 0x86, 0x48, 0x86, 0xF7, 0x0D, 0x01, 0x03, 0x01], "DHPrivateKey"),
  ([0x2A, 0x86, 0x48, 0xCE, 0x3E, 0x02, 0x01], "DHPrivateKey"),
  ([0x2B, 0x65, 0x6E], "X25519PrivateKey"),
  ([0x2B, 0x65, 0x6F], "X448PrivateKey"),
  ([0x2B, 0x65, 0x71], "Ed448PrivateKey")]

/-- The key on a curve with a secret number; on P-256 the number must be below the order. -/
def onCurve? (curveId : Bytes) (secret : Nat) : Option PrivateKey := do
  let name ← curves.lookup curveId
  if secret = 0 ∨ (curveId = p256Id ∧ P256.order ≤ secret) then none else some (.curve name secret)

/-- The tag of the parameters inside a key on a curve. -/
def parametersTag : UInt8 := 0xA0

/-- A key on a curve, which is named outside the key or inside it. -/
def ofCurveKey? (named : Option Bytes) (bytes : Bytes) : Option PrivateKey := do
  let content ← Der.whole? Der.sequenceTag bytes
  let (version, rest) ← Der.takeNatural? content
  if version ≠ 1 then none
  let (secret, rest) ← Der.take? Der.bytesTag rest
  let inner := do Der.whole? Der.identifierTag (← Der.take? parametersTag rest).1
  onCurve? (← inner.orElse fun _ => named) (Sha512.ofBigEndian secret)

/-- A private key of any kind behind the identifier of its kind. -/
def ofBytes? (bytes : Bytes) : Option PrivateKey := do
  let content ← Der.whole? Der.sequenceTag bytes
  let (version, rest) ← Der.takeNatural? content
  if version > 1 then none
  let (scheme, rest) ← Der.take? Der.sequenceTag rest
  let (id, parameters) ← Der.take? Der.identifierTag scheme
  let (key, _) ← Der.take? Der.bytesTag rest
  if id = ed25519Id then
    let seed ← Der.whole? Der.bytesTag key
    if seed.length = SigningKey.seedSize then some (.ed25519 seed) else none
  else if id = curveKeyId then
    ofCurveKey? (← Der.whole? Der.identifierTag parameters) key
  else return .other (← others.lookup id)

/-- The private key in a block, by its label; none for a block of another kind. -/
def ofBlock? (label : Text) (content : Option Bytes) : Option (Option PrivateKey) :=
  if label = ("PRIVATE KEY" : Text) then some (content.bind ofBytes?)
  else if label = ("EC PRIVATE KEY" : Text) then some (content.bind (ofCurveKey? none))
  else if label = ("RSA PRIVATE KEY" : Text) then
    some ((content.bind (Der.whole? Der.sequenceTag)).map fun _ => .other "RSAPrivateKey")
  else if label = ("DSA PRIVATE KEY" : Text) then
    some ((content.bind (Der.whole? Der.sequenceTag)).map fun _ => .other "DSAPrivateKey")
  else if label = ("ENCRYPTED PRIVATE KEY" : Text) then some none
  else none

/-- The first private key of an armoured file. -/
def ofText? (t : Text) : Option PrivateKey :=
  ((Pem.blocks t).findSome? fun (label, content) => ofBlock? label content).bind id

/-- The bytes of a new key on P-256, with its public key. -/
def p256Bytes (secret : Nat) : Bytes :=
  let publicKey := P256.uncompressed (P256.multiply secret P256.base)
  let key := Der.sequence [
    Der.natural 1, Der.value Der.bytesTag (Sha256.bigEndian 32 secret),
    Der.value 0xA1 (Der.value Der.bitsTag (0x00 :: publicKey))]
  Der.sequence [
    Der.natural 0,
    Der.sequence [Der.value Der.identifierTag curveKeyId, Der.value Der.identifierTag p256Id],
    Der.value Der.bytesTag key]

end PrivateKey

/-- Why a key file gives no signing key. -/
inductive KeyFileError
  | notFound
  | empty
  | badArmour
  | unsupportedCurve (name : Text)
  | unsupportedKind (kind : Text)
  | badBase64
  | seedSize

namespace KeyFileError

/-- The refusal in words. What is wrong inside an armoured key is not told. -/
def message : KeyFileError → Text
  | notFound => "signing key file not found"
  | empty => "signing key file is empty"
  | badArmour => "invalid PEM private key: *"
  | unsupportedCurve name => "unsupported EC curve '" ++ name ++ "' (only P-256 is supported)"
  | unsupportedKind kind => "unsupported private key type " ++ kind
  | badBase64 => "invalid base64 in key seed file"
  | seedSize => "ed25519 private key seed must decode to 32 bytes"

/-- The refusal of the file at a path. -/
def toFault (p : Path) (e : KeyFileError) : Fault :=
  .problem (.atPath .signingKey e.message p.toText)

end KeyFileError

namespace KeyFile

/-- What an armoured file holds somewhere. -/
def mark : Bytes := [0x2D, 0x2D, 0x2D, 0x2D, 0x2D, 0x42, 0x45, 0x47, 0x49, 0x4E]

/-- Whether the bytes hold the mark of an armoured file. -/
def isArmoured : Bytes → Bool
  | [] => false
  | b :: rest => mark.isPrefixOf (b :: rest) || isArmoured rest

/-- The blanks of bytes. -/
def isSpace (b : UInt8) : Bool := b == 0x20 || (0x09 ≤ b && b ≤ 0x0D)

/-- The signing key of an armoured file; a password is refused for a key that needs none. -/
def ofArmour (content : Bytes) (password : Option Bytes) : Except KeyFileError SigningKey :=
  match PrivateKey.ofText? (content.map fun b => CodePoint.ofNat b.toNat) with
  | none => .error .badArmour
  | some key =>
    if password.isSome then .error .badArmour
    else match key with
      | .ed25519 seed => .ok (.ed25519 seed)
      | .curve name secret =>
        if name = PrivateKey.p256Name then .ok (.ecdsaP256 secret)
        else .error (.unsupportedCurve name)
      | .other kind => .error (.unsupportedKind kind)

/-- The signing key of a file with the base 64 of a seed. -/
def ofSeedFile (content : Bytes) : Except KeyFileError SigningKey :=
  match Text.ofAsciiBytes? content with
  | none => .error .badBase64
  | some t =>
    match Base64.decode t.trimmed with
    | .error _ => .error .badBase64
    | .ok seed =>
      if seed.length = SigningKey.seedSize then .ok (.ed25519 seed) else .error .seedSize

/-- The signing key in the content of a file. -/
def parse (content : Bytes) (password : Option Bytes) : Except KeyFileError SigningKey :=
  if content.all isSpace then .error .empty
  else if isArmoured content then ofArmour content password
  else ofSeedFile content

/-- The signing key in a file. -/
def load (p : Path) (password : Option Bytes) : Action SigningKey := do
  if !(← Action.ask (·.holds p)) then throw (KeyFileError.notFound.toFault p)
  let content ← Action.ask (·.read p)
  Action.ofExcept (KeyFileError.toFault p) (parse content password)

/-- The content of the file of a new key. -/
def write : SigningKey → Text
  | .ed25519 seed => Base64.encode seed ++ "\n"
  | .ecdsaP256 secret => Pem.write ⟨"PRIVATE KEY", PrivateKey.p256Bytes secret⟩

end KeyFile

/-- What a new key is wanted like: where it goes, its scheme, whether its identity and its short
name are told, and whether a file that is there may be overwritten. -/
structure KeygenOptions where
  out : Path
  algorithm : Algorithm
  tellIdentity : Bool
  tellKid : Bool
  force : Bool

namespace Keygen

/-- The mode of key files: for their owner only. -/
def mode : Nat := 0o600

/-- The key that chance bytes give. -/
def keyOf (algorithm : Algorithm) (chance : Bytes) : Except Problem SigningKey :=
  match algorithm with
  | .ed25519 => SigningKey.ofSeed chance
  | .ecdsaP256 =>
    .ok (.ecdsaP256 (Sha512.ofBigEndian (Sha512.digest chance) % (P256.order - 1) + 1))

/-- What is told about a new key, line by line. -/
def lines (options : KeygenOptions) (key : SigningKey) : List Text :=
  (if options.tellIdentity then [Base64.encode key.identity] else []) ++
    if options.tellKid then [key.kid] else []

/-- Makes a key from chance bytes and puts it into a file that only its owner can read. -/
def run (options : KeygenOptions) (chance : Bytes) : Action (SigningKey × List Text) := do
  let taken ← Action.ask (·.holds options.out)
  if taken && !options.force then
    throw (.badValue ("refusing to overwrite existing key file: " ++ options.out.toText))
  Action.makeDirectories options.out.parent
  let key ← Action.ofExcept Fault.problem (keyOf options.algorithm chance)
  let content := (KeyFile.write key).map fun c => c.val.toUInt8
  Action.change (·.write options.out content mode)
  return (key, lines options key)

end Keygen

end ModulePackaging
