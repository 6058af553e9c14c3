import ModulePackaging.Proofs.Descriptors
import ModulePackaging.Proofs.Encodings
import ModulePackaging.Proofs.Json.RoundTrip
import ModulePackaging.Signing.Block

/-!
# Signature blocks in manifests

A block that came from signing is read back from the object that a manifest holds of it: a digest
has 32 bytes, and neither a signature nor an identity is empty.
-/

namespace ModulePackaging

namespace Algorithm

theorem ofName?_name (algorithm : Algorithm) : ofName? algorithm.name = some algorithm := by
  cases algorithm <;> decide

end Algorithm

/-! ## Keys -/

namespace SigningKey

/-- The key whose seed is all zeros. -/
def zero : SigningKey := .ed25519 (List.replicate seedSize 0)

/-- The identity of a key is not empty. -/
theorem identity_ne_nil (key : SigningKey) : key.identity ≠ [] := by
  cases key with
  | ed25519 seed =>
      intro none
      have size := congrArg List.length none
      simp [identity, Edwards.publicKey, Edwards.encode, Edwards.littleEndian,
        Sha256.length_bigEndian] at size
  | ecdsaP256 secret => exact List.cons_ne_nil _ _

/-- The signature of a message is not empty. -/
theorem sign_ne_nil (key : SigningKey) (message : Bytes) : key.sign message ≠ [] := by
  cases key with
  | ed25519 seed =>
      intro none
      have size := congrArg List.length none
      simp [sign, Edwards.sign, Edwards.encode, Edwards.littleEndian,
        Sha256.length_bigEndian] at size
  | ecdsaP256 secret => exact List.cons_ne_nil _ _

end SigningKey

/-! ## Blocks -/

namespace SignatureBlock

/-- What a block must be like to be read back. -/
structure IsWellFormed (block : SignatureBlock) : Prop where
  digest : block.digest.length = digestSize
  signature : block.signature ≠ []
  identity : block.identity ≠ []

theorem digestText?_label (bytes : Bytes) :
    digestText? (.str ("sha256:" ++ Hex.encode bytes)) = some (Hex.encode bytes) := by
  have start : (Text.ofString "sha256:" ++ Hex.encode bytes).startsWith "sha256:" = true := by
    simp [Text.startsWith]
  unfold digestText?
  simp only [start, if_true]
  rfl

/-- The members of the object of a block. -/
def members (block : SignatureBlock) : Members := [
  ("algorithm", .str block.algorithm.name),
  ("digest", .str ("sha256:" ++ Hex.encode block.digest)),
  ("signature", .str (Base64.encode block.signature)),
  ("signer_identity", .str (Base64.encode block.identity)),
  ("kid", .str block.kid)]

theorem nodup_keys_members (block : SignatureBlock) : (block.members.map Prod.fst).Nodup := by
  show (["algorithm", "digest", "signature", "signer_identity", "kid"] : List Text).Nodup
  decide

theorem storable_toJson (block : SignatureBlock) (depth : Nat) :
    Json.Storable (depth + 1) block.toJson := by
  apply Json.Storable.obj block.nodup_keys_members
  simp only [members, List.forall_mem_cons, List.not_mem_nil, false_implies, implies_true, and_true]
  exact ⟨.str _, .str _, .str _, .str _, .str _⟩

/-- A text of the object of a block is found under its key in the object in order. -/
theorem valueAt_inOrder {block : SignatureBlock} {key t : Text}
    (h : (key, Json.str t) ∈ block.members) :
    valueAt (Json.Style.inKeyOrder (Json.membersInOrder block.members)) key = .str t := by
  rw [valueAt, Json.get?_of_mem block.nodup_keys_members h]
  rfl

/-- A well-formed block is read back from its object. -/
theorem ofJson_inOrder {block : SignatureBlock} (h : block.IsWellFormed) :
    ofJson block.toJson.inOrder = .ok block := by
  show ofMembers (Json.Style.inKeyOrder (Json.membersInOrder block.members)) = .ok block
  have algorithm : valueAt _ "algorithm" = .str block.algorithm.name :=
    valueAt_inOrder (.head _)
  have digest : valueAt _ "digest" = .str ("sha256:" ++ Hex.encode block.digest) :=
    valueAt_inOrder (.tail _ (.head _))
  have signature : valueAt _ "signature" = .str (Base64.encode block.signature) :=
    valueAt_inOrder (.tail _ (.tail _ (.head _)))
  have identity : valueAt _ "signer_identity" = .str (Base64.encode block.identity) :=
    valueAt_inOrder (.tail _ (.tail _ (.tail _ (.head _))))
  have kid : valueAt _ "kid" = .str block.kid :=
    valueAt_inOrder (.tail _ (.tail _ (.tail _ (.tail _ (.head _)))))
  generalize Json.Style.inKeyOrder (Json.membersInOrder block.members) = found at *
  have filled : (block.signature.isEmpty || block.identity.isEmpty) = false := by
    rw [List.isEmpty_eq_false_iff.mpr h.signature, List.isEmpty_eq_false_iff.mpr h.identity]
    rfl
  unfold ofMembers
  simp only [algorithm, digest, signature, identity, kid, Json.textOrEmpty_str,
    Algorithm.ofName?_name, digestText?_label, Hex.decode_encode, Base64.decode_encode,
    mapError_ok, bind, Except.bind, h.digest, ne_eq, not_true_eq_false, if_false, filled,
    Bool.false_eq_true, pure, Except.pure]
  rw [if_pos]
  exact beq_self_eq_true _

/-- A block from signing is well-formed. -/
theorem isWellFormed_blockFor (key : SigningKey) (message : Bytes) :
    (Signing.blockFor key (Sha256.digest message)).IsWellFormed :=
  ⟨Sha256.length_digest message, key.sign_ne_nil _, key.identity_ne_nil⟩

end SignatureBlock

namespace Signing

/-- Signing gives a well-formed block for the descriptor that the draft is the draft of. -/
theorem sign_eq_ok {artifact : Bytes} {draft : Draft} {handle : KeyHandle} {d : Descriptor}
    {block : SignatureBlock} (h : sign artifact draft handle = .ok (d, block)) :
    ∃ key bytes, handle.signingKey = .ok key ∧ artifact ≠ [] ∧ draft = d.draft ∧
      d.draft.check = .ok d ∧ signedBytes artifact d.draft = .ok bytes ∧
        block = blockFor key (Sha256.digest bytes) := by
  unfold sign at h
  obtain ⟨key, handled, h⟩ := bind_eq_ok.mp h
  obtain ⟨some, h⟩ := guard_eq_ok.mp h
  obtain ⟨e, checked, h⟩ := bind_eq_ok.mp h
  obtain ⟨hash, hashed, h⟩ := bind_eq_ok.mp h
  obtain ⟨rfl, rfl⟩ := Prod.mk.inj (Except.ok.inj h)
  unfold digest at hashed
  obtain ⟨bytes, signed, done⟩ := bind_eq_ok.mp hashed
  obtain rfl := Except.ok.inj done
  obtain ⟨same, check⟩ := Draft.eq_of_checkResolved (mapError_eq_ok.mp checked)
  rw [same] at check
  exact ⟨key, bytes, mapError_eq_ok.mp handled, by simpa using some, same, check, signed, rfl⟩

end Signing

end ModulePackaging
