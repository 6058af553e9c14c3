import ModulePackaging.Proofs.Signing.Blocks
import ModulePackaging.Proofs.Signing.SignedBytes

/-!
# What a signature binds

A block that a key signed holds for the artifact and the descriptor that it was signed for, as far
as the scheme of the key accepts what the key signs and the signer is trusted. For another artifact
or descriptor it holds only where the digest fails: two different messages that have one digest.
-/

namespace ModulePackaging

/-- Whether the scheme of a key accepts the signature that the key makes. -/
def SigningKey.isAccepted (key : SigningKey) (message : Bytes) : Bool :=
  verifySignature key.algorithm key.identity message (key.sign message)

namespace Signing

variable {a a' : Bytes} {draft : Draft} {d d' signedAs : Descriptor} {key : SigningKey}
  {handle : KeyHandle} {block : SignatureBlock} {trusted : Option (List Bytes)}

theorem isTrusted_eq_true {identity : Bytes} : isTrusted trusted identity = true ↔
    trusted = none ∨ ∃ identities, trusted = some identities ∧ identity ∈ identities := by
  cases trusted with
  | none => simp [isTrusted]
  | some identities => simp [isTrusted]

/-- The digest is that of the signed bytes, where there are some. -/
theorem digest_eq_ok {hash : Bytes} : digest a draft = .ok hash ↔
    ∃ bytes, signedBytes a draft = .ok bytes ∧ Sha256.digest bytes = hash := by
  unfold digest
  rw [bind_eq_ok]
  simp only [pure, Except.pure, Except.ok.injEq]

/-- What makes a block hold: its digest is that of the artifact and the draft, and its signature is
one of the digest by a trusted signer. -/
theorem verifyBlock_eq_true : verifyBlock a draft block trusted = true ↔
    a ≠ [] ∧ block.digest.length = SignatureBlock.digestSize ∧
      digest a draft = .ok block.digest ∧ isTrusted trusted block.identity = true ∧
      verifySignature block.algorithm block.identity block.digest block.signature = true := by
  unfold verifyBlock
  split
  · rename_i refused
    simp only [Bool.or_eq_true, List.isEmpty_iff, bne_iff_ne] at refused
    simp only [Bool.false_eq_true, false_iff]
    rintro ⟨some, size, _⟩
    exact refused.elim some fun other => other size
  · rename_i passed
    simp only [Bool.or_eq_true, List.isEmpty_iff, bne_iff_ne, not_or, not_not] at passed
    cases hashed : digest a draft with
    | error e => simp
    | ok hash => simp [passed, and_assoc]

/-- A block of a key for some signed bytes holds exactly for what has the same digest, if the signer
is trusted and the scheme accepts what the key signs. -/
theorem verifyBlock_blockFor (message : Bytes) :
    verifyBlock a draft (blockFor key (Sha256.digest message)) trusted = true ↔
      a ≠ [] ∧ (∃ bytes, signedBytes a draft = .ok bytes ∧
        Sha256.digest bytes = Sha256.digest message) ∧
      isTrusted trusted key.identity = true ∧ key.isAccepted (Sha256.digest message) = true := by
  have size : (Sha256.digest message).length = SignatureBlock.digestSize :=
    Sha256.length_digest message
  rw [verifyBlock_eq_true]
  show _ ∧ (Sha256.digest message).length = _ ∧ digest a draft = .ok (Sha256.digest message) ∧ _ ↔ _
  rw [digest_eq_ok]
  simp only [size, true_and]
  rfl

/-- The block of a key holds for what was signed if the scheme accepts the signature. -/
theorem verifyBlock_of_sign (h : sign a draft handle = .ok (d, block)) :
    ∃ key hash, handle.signingKey = .ok key ∧ block = blockFor key hash ∧
      verifyBlock a draft block (some [key.identity]) = key.isAccepted hash := by
  obtain ⟨key, bytes, handled, some, rfl, _, signed, rfl⟩ := sign_eq_ok h
  refine ⟨key, Sha256.digest bytes, handled, rfl, ?_⟩
  rw [Bool.eq_iff_iff, verifyBlock_blockFor]
  constructor
  · rintro ⟨_, _, _, accepted⟩
    exact accepted
  · intro accepted
    exact ⟨some, ⟨bytes, signed, rfl⟩, by simp [isTrusted], accepted⟩

/-- A block that a key signed for an artifact and a descriptor holds, for whoever trusts the key, in
these cases only: for that artifact and that descriptor, if the scheme accepts what the key signed;
and where the bytes that are signed then and those that were signed collide. -/
theorem signature_binds (signed : sign a d.draft (.key key) = .ok (signedAs, block))
    (a' : Bytes) (d' : Descriptor) (trusted : Option (List Bytes)) :
    verifyBlock a' d'.draft block trusted = true ↔
      (trusted = none ∨ ∃ identities, trusted = some identities ∧ key.identity ∈ identities) ∧
      key.isAccepted block.digest = true ∧
      ((a', d') = (a, d) ∨ a' ≠ [] ∧ ∃ bytes bytes', signedBytes a d.draft = .ok bytes ∧
        signedBytes a' d'.draft = .ok bytes' ∧ Sha256.Collide bytes' bytes) := by
  obtain ⟨_, bytes, handled, some, drafts, _, message, rfl⟩ := sign_eq_ok signed
  obtain rfl := Except.ok.inj handled
  obtain rfl : d = signedAs := Descriptor.eq_of_draft_eq drafts
  rw [verifyBlock_blockFor, isTrusted_eq_true]
  constructor
  · rintro ⟨some', ⟨bytes', message', same⟩, trusts, accepted⟩
    refine ⟨trusts, accepted, ?_⟩
    rcases Sha256.eq_or_collide same with rfl | collide
    · obtain ⟨rfl, rfl⟩ := signedBytes_inj message' message
      exact .inl rfl
    · exact .inr ⟨some', bytes, bytes', message, message', collide⟩
  · rintro ⟨trusts, accepted, signedFor⟩
    rcases signedFor with same | ⟨some', _, bytes', message', signed', _, same⟩
    · obtain ⟨rfl, rfl⟩ := Prod.mk.inj same
      exact ⟨some, ⟨bytes, message, rfl⟩, trusts, accepted⟩
    · obtain rfl := Except.ok.inj (message.symm.trans message')
      exact ⟨some', ⟨bytes', signed', same⟩, trusts, accepted⟩

end Signing

namespace Sample

open Signing

/-- A descriptor whose description looks like the start of another one. -/
def nested : Descriptor where
  name := "demo"
  numericId := 7
  version := "1.0.0"
  buildId := ""
  buildIdNamespace := "demo"
  confidentiality := .everyone
  hostTriple := "x86_64-linux"
  docTitle := "demo"
  description := "\x7d\x7b\"b"

set_option maxRecDepth 100000 in
/-- The block of an artifact holds for it where the signer is trusted, and not where nobody is. -/
theorem signature_binds_nested :
    ∃ block, sign [0x4D] nested.draft (.key .zero) = .ok (nested, block) ∧
      verifyBlock [0x4D] nested.draft block (some [SigningKey.zero.identity]) = true ∧
      verifyBlock [0x4D] nested.draft block (some []) = false := by
  have run : passes (sign [0x4D] nested.draft (.key .zero)) (fun signed =>
      decide (signed.1 = nested) && SigningKey.zero.isAccepted signed.2.digest) = true := by
    decide +kernel
  obtain ⟨⟨d, block⟩, signed, run⟩ := exists_of_passes run
  simp only [Bool.and_eq_true, decide_eq_true_eq] at run
  obtain ⟨rfl, accepted⟩ := run
  have binds := signature_binds signed [0x4D] nested
  refine ⟨block, signed, ?_, ?_⟩
  · exact (binds _).mpr ⟨.inr ⟨_, rfl, List.mem_singleton_self _⟩, accepted, .inl rfl⟩
  · rw [Bool.eq_false_iff]
    intro holds
    obtain ⟨trusts, _⟩ := (binds _).mp holds
    simp at trusts

end Sample

end ModulePackaging
