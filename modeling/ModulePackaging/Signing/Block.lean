import ModulePackaging.Descriptor.Check
import ModulePackaging.Signing.Key
import ModulePackaging.Log

/-!
# Signature blocks

A package is signed over the digest of its artifact followed by the canonical bytes of its
descriptor. The block that goes with it holds the digest, the signature and the public identity of
the signer, so that it can be checked with nothing else at hand.
-/

namespace ModulePackaging

/-- A signature with what is needed to check it. -/
structure SignatureBlock where
  algorithm : Algorithm
  digest : Bytes
  signature : Bytes
  identity : Bytes
  deriving DecidableEq

/-- Why a signature block cannot be read. -/
inductive BlockError
  | notObject
  | algorithm (name : Text)
  | digestForm
  | hex (position : Nat)
  | base64 (e : Base64.Defect)
  | digestSize
  | missing
  | kid

namespace BlockError

/-- The refusal in words. -/
def message : BlockError → Text
  | notObject => "signature block must be an object"
  | algorithm name => Algorithm.unsupported name
  | digestForm => "signature digest must be 'sha256:<hex>'"
  | hex position => "malformed signature block: " ++ Hex.message position
  | base64 e => "malformed signature block: " ++ e.message
  | digestSize => "signature digest must be 32 bytes"
  | missing => "signature block is missing signature or signer identity"
  | kid => "signature kid does not match signer identity"

/-- The part of the block that is refused. -/
def field : BlockError → Text
  | algorithm _ => "signature.algorithm"
  | digestForm | digestSize => "signature.digest"
  | kid => "signature.kid"
  | notObject | hex _ | base64 _ | missing => "signature"

/-- The refusal as a problem. -/
def toProblem (e : BlockError) : Problem := .inField .integrity e.message e.field

end BlockError

namespace SignatureBlock

/-- The size of a digest. -/
def digestSize : Nat := 32

variable (block : SignatureBlock)

/-- The short name of the signer. -/
def kid : Text := identityName block.algorithm.name block.identity

/-- A block as an object. -/
def toJson : Json := .obj [
  ("algorithm", .str block.algorithm.name),
  ("digest", .str ("sha256:" ++ Hex.encode block.digest)),
  ("signature", .str (Base64.encode block.signature)),
  ("signer_identity", .str (Base64.encode block.identity)),
  ("kid", .str block.kid)]

/-- The value of a key; null if it is missing. -/
def valueAt (members : Members) (key : Text) : Json := (members.get? key).getD .null

/-- The text behind the kind of a digest. -/
def digestText? : Json → Option Text
  | .str t => if t.startsWith "sha256:" then some (t.drop 7) else none
  | _ => none

/-- The block that the members of an object hold. -/
def ofMembers (members : Members) : Except BlockError SignatureBlock := do
  let name := (valueAt members "algorithm").textOrEmpty
  match Algorithm.ofName? name, digestText? (valueAt members "digest") with
  | none, _ => throw (.algorithm name)
  | some _, none => throw .digestForm
  | some algorithm, some digits =>
    let digest ← (Hex.decode digits).mapError .hex
    let signature ← (Base64.decode (valueAt members "signature").textOrEmpty).mapError .base64
    let identity ← (Base64.decode (valueAt members "signer_identity").textOrEmpty).mapError .base64
    if digest.length ≠ digestSize then throw .digestSize
    if signature.isEmpty || identity.isEmpty then throw .missing
    let block : SignatureBlock := ⟨algorithm, digest, signature, identity⟩
    match valueAt members "kid" with
    | .null => return block
    | kid => if kid.equalsText block.kid then return block else throw .kid

/-- The block that a value holds. -/
def ofJson : Json → Except BlockError SignatureBlock
  | .obj members => ofMembers members
  | _ => .error .notObject

end SignatureBlock

/-- What a package is signed with: a key, nothing, or something that is no key. -/
inductive KeyHandle
  | key (k : SigningKey)
  | absent
  | notKey (kind : Text)

namespace KeyHandle

/-- The signing key of a handle. -/
def signingKey : KeyHandle → Except Problem SigningKey
  | key k => .ok k
  | absent => .error (SigningKey.problem "no signing key supplied")
  | notKey kind => .error (SigningKey.problem ("unsupported signing key handle " ++ kind))

end KeyHandle

namespace Signing

/-- The bytes that a signature covers. -/
def signedBytes (artifact : Bytes) (draft : Draft) : Except Fault Bytes := do
  return artifact ++ (← draft.canonicalBytes)

/-- The digest of an artifact with its descriptor. -/
def digest (artifact : Bytes) (draft : Draft) : Except Fault Bytes := do
  return Sha256.digest (← signedBytes artifact draft)

/-- A descriptor that is not in resolved form is not signed. -/
def draftProblem (e : DraftError) : Problem :=
  .inField .integrity ("descriptor failed re-validation: " ++ e.message) e.field

/-- What a signature leaves in the log. -/
def record (d : Descriptor) (block : SignatureBlock) : LogRecord :=
  ⟨.debug, "simpack.sign", "signed " ++ d.name ++ " " ++ d.version ++ " digest=" ++
    Hex.encode block.digest ++ " kid=" ++ block.kid⟩

/-- The block for a digest. -/
def blockFor (key : SigningKey) (digest : Bytes) : SignatureBlock :=
  ⟨key.algorithm, digest, key.sign digest, key.identity⟩

/-- Signs an artifact with its descriptor, which is checked again. -/
def sign (artifact : Bytes) (draft : Draft) (handle : KeyHandle) :
    Except Fault (Descriptor × SignatureBlock) := do
  let key ← handle.signingKey.mapError .problem
  if artifact.isEmpty then throw (.problem (.of .integrity "artifact is empty"))
  let d ← draft.checkResolved.mapError fun e => .problem (draftProblem e)
  let digest ← digest artifact d.draft
  return (d, blockFor key digest)

/-- Whether a list of trusted identities holds an identity; no list trusts all. -/
def isTrusted (trusted : Option (List Bytes)) (identity : Bytes) : Bool :=
  match trusted with
  | none => true
  | some identities => identities.contains identity

/-- Whether a block belongs to an artifact and a descriptor, and its signer is trusted. -/
def verifyBlock (artifact : Bytes) (draft : Draft) (block : SignatureBlock)
    (trusted : Option (List Bytes)) : Bool :=
  if artifact.isEmpty || block.digest.length != SignatureBlock.digestSize then false
  else match digest artifact draft with
    | .error _ => false
    | .ok expected =>
      expected == block.digest && isTrusted trusted block.identity &&
        verifySignature block.algorithm block.identity block.digest block.signature

end Signing

end ModulePackaging
