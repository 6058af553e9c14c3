import ModulePackaging.Proofs.Json.Files
import ModulePackaging.Proofs.Signing.Blocks

/-!
# The short name of a signer

A well-formed block is written as printing ASCII and read back as itself. The short name in its
object is made of the scheme and of the digest of the identity, so an object that is read with a
short name is refused as soon as another scheme or another identity stands in it, unless the two
identities collide.
-/

namespace ModulePackaging

/-! ## ASCII -/

namespace Text

/-- A text of ASCII. -/
def IsAscii (t : Text) : Prop := ∀ c ∈ t, c.val < 0x80

theorem isAscii_cons {c : CodePoint} {t : Text} : IsAscii (c :: t) ↔ c.val < 0x80 ∧ IsAscii t :=
  List.forall_mem_cons

theorem isAscii_append {t u : Text} : IsAscii (t ++ u) ↔ IsAscii t ∧ IsAscii u :=
  List.forall_mem_append

theorem isAscii_of_all {t : Text} (h : (t.all fun c => c.val < 0x80) = true) : t.IsAscii := by
  intro c member
  exact of_decide_eq_true (List.all_eq_true.mp h c member)

end Text

namespace Json

theorem isAscii_escapeControls {c : CodePoint} (low : c.val < 0x80) :
    (escapeControls c).IsAscii := by
  rcases escapeControls_cases c with ⟨letter, _, _, ascii, _, form⟩ | ⟨_, form⟩ | ⟨_, _, _, form⟩
  · rw [form, Text.isAscii_cons, Text.isAscii_cons]
    exact ⟨by decide, ascii, List.forall_mem_nil _⟩
  · rw [form]
    show Text.IsAscii (0x5C :: 0x75 :: Text.hexDigits 4 c.val)
    rw [hexDigits_four]
    simp only [Text.isAscii_cons, val_hexDigit (Nat.mod_lt _ (show 0 < 16 by decide)), true_and]
    exact ⟨by decide, by decide, List.forall_mem_nil _⟩
  · rw [form, Text.isAscii_cons]
    exact ⟨low, List.forall_mem_nil _⟩

/-- A text of ASCII is written in ASCII. -/
theorem isAscii_string {t : Text} (ascii : t.IsAscii) : (Style.canonical.string t).IsAscii := by
  rw [Style.string_eq, Text.isAscii_cons, Text.isAscii_append]
  refine ⟨by decide, ?_, Text.isAscii_of_all (by decide)⟩
  intro c member
  obtain ⟨d, inside, written⟩ := List.mem_flatMap.mp member
  exact isAscii_escapeControls (ascii d inside) c written

/-- An object whose keys and values are texts of ASCII is written in ASCII. -/
theorem isAscii_obj {members : Members}
    (ascii : ∀ m ∈ members, m.1.IsAscii ∧ ∃ t : Text, m.2 = .str t ∧ t.IsAscii) :
    (canonicalText (.obj members)).IsAscii := by
  rw [canonicalText, Style.write_obj, Text.isAscii_cons, Text.isAscii_append]
  refine ⟨by decide, ?_, Text.isAscii_of_all (by decide)⟩
  intro c member
  rcases Text.mem_joined member with comma | ⟨piece, among, inside⟩
  · exact Text.isAscii_of_all (t := [0x2C]) (by decide) c comma
  · obtain ⟨⟨key, value⟩, there, rfl⟩ := List.mem_map.mp among
    obtain ⟨plain, t, rfl, low⟩ := ascii _ (Style.mem_inKeyOrder.mp there)
    have colon : Text.IsAscii [0x3A] := Text.isAscii_of_all (by decide)
    have written :
        Text.IsAscii (Style.canonical.string key ++ ([0x3A] ++ Style.canonical.string t)) :=
      Text.isAscii_append.mpr
        ⟨isAscii_string plain, Text.isAscii_append.mpr ⟨colon, isAscii_string low⟩⟩
    exact written c inside

end Json

/-- The bytes of printing ASCII. -/
def Bytes.ArePrinting (bytes : Bytes) : Prop := ∀ b ∈ bytes, 0x20 ≤ b ∧ b < 0x80

/-- A text of printing ASCII has the bytes of printing ASCII. -/
theorem Utf8.arePrinting_flatMap {t : Text} (printing : t.IsPrinting) (ascii : t.IsAscii) :
    Bytes.ArePrinting (t.flatMap encodePoint) := by
  intro b member
  obtain ⟨c, inside, form⟩ := List.mem_flatMap.mp member
  rw [encodePoint_ascii (ascii c inside), List.mem_singleton] at form
  have low := ascii c inside
  have high := printing c inside
  subst form
  have number : c.val.toUInt8.toNat = c.val :=
    UInt8.toNat_ofNat_of_lt' (show c.val < 2 ^ 8 by omega)
  rw [UInt8.le_iff_toNat_le, UInt8.lt_iff_toNat_lt, number]
  exact ⟨high, low⟩

namespace SignatureBlock

variable {block : SignatureBlock} {members : Members} {value : Json}

/-! ## Written and read back -/

theorem isAscii_toJson (block : SignatureBlock) : (block.toJson.canonicalText).IsAscii := by
  have name : block.algorithm.name.IsAscii := by
    cases block.algorithm <;> exact Text.isAscii_of_all (by decide)
  have start : Text.IsAscii "sha256:" := Text.isAscii_of_all (by decide)
  have colon : Text.IsAscii ":" := Text.isAscii_of_all (by decide)
  have letters : ∀ bytes, (Base64.encode bytes).IsAscii := Base64.ascii_of_mem_encode
  apply Json.isAscii_obj
  simp only [List.forall_mem_cons, List.not_mem_nil, false_implies, implies_true, and_true]
  refine ⟨⟨Text.isAscii_of_all (by decide), _, rfl, name⟩,
    ⟨Text.isAscii_of_all (by decide), _, rfl,
      Text.isAscii_append.mpr ⟨start, Hex.ascii_of_mem_encode _⟩⟩,
    ⟨Text.isAscii_of_all (by decide), _, rfl, letters _⟩,
    ⟨Text.isAscii_of_all (by decide), _, rfl, letters _⟩,
    ⟨Text.isAscii_of_all (by decide), _, rfl, ?_⟩⟩
  exact Text.isAscii_append.mpr ⟨Text.isAscii_append.mpr ⟨name, colon⟩, letters _⟩

/-- A well-formed block has bytes of printing ASCII, whose text is read as its object. -/
theorem storedBytes_toJson (h : block.IsWellFormed) :
    ∃ bytes text read, block.toJson.storedBytes = .ok bytes ∧ Bytes.ArePrinting bytes ∧
      Utf8.decode bytes = .ok text ∧ Json.read text = .ok read ∧ ofJson read = .ok block := by
  have storable : Json.Storable Json.nestingLimit block.toJson := block.storable_toJson 989
  have ascii := block.isAscii_toJson
  have encodable := Text.isEncodable_of_ascii ascii
  have short : block.toJson.holdsLong = false := by
    simp [toJson]
  refine ⟨_, block.toJson.canonicalText, block.toJson.inOrder,
    Json.storedBytes_eq_ok.mpr ⟨short, Utf8.encode_of_isEncodable encodable⟩,
    Utf8.arePrinting_flatMap (Json.printing_write storable 0) ascii,
    Utf8.decode_flatMap encodable, Json.read_canonicalText_alone storable, ofJson_inOrder h⟩

/-! ## What is read -/

/-- An object whose parts can be read: they make up a block, which may still have other sizes than a
block must have. -/
structure HasParts (members : Members) (block : SignatureBlock) : Prop where
  algorithm : Algorithm.ofName? (valueAt members "algorithm").textOrEmpty = some block.algorithm
  digest : ∃ digits, digestText? (valueAt members "digest") = some digits ∧
    Hex.decode digits = .ok block.digest
  signature : Base64.decode (valueAt members "signature").textOrEmpty = .ok block.signature
  identity : Base64.decode (valueAt members "signer_identity").textOrEmpty = .ok block.identity

/-- The block of the parts is read if it has the sizes of a block and the short name is its own. -/
theorem ofMembers_of_parts (parts : HasParts members block) :
    ofMembers members = (do
      if block.digest.length ≠ digestSize then throw .digestSize
      if block.signature.isEmpty || block.identity.isEmpty then throw .missing
      match valueAt members "kid" with
      | .null => return block
      | kid => if kid.equalsText block.kid then return block else throw .kid) := by
  obtain ⟨digits, form, digest⟩ := parts.digest
  unfold ofMembers
  dsimp only
  rw [parts.algorithm, form]
  dsimp only
  rw [digest, parts.signature, parts.identity]
  rfl

/-- What is read is the block of the parts. -/
theorem parts_of_ofMembers (h : ofMembers members = .ok block) : HasParts members block := by
  unfold ofMembers at h
  simp only at h
  split at h
  · exact absurd h throw_ne_ok
  · exact absurd h throw_ne_ok
  · rename_i algorithm digits named form
    obtain ⟨digest, hex, h⟩ := bind_eq_ok.mp h
    obtain ⟨signature, signed, h⟩ := bind_eq_ok.mp h
    obtain ⟨identity, identified, h⟩ := bind_eq_ok.mp h
    obtain ⟨_, h⟩ := guard_eq_ok.mp h
    obtain ⟨_, h⟩ := guard_eq_ok.mp h
    have made : block = ⟨algorithm, digest, signature, identity⟩ := by
      split at h
      · exact (Except.ok.inj h).symm
      · split at h
        · exact (Except.ok.inj h).symm
        · exact absurd h throw_ne_ok
    subst made
    exact ⟨named, ⟨digits, form, mapError_eq_ok.mp hex⟩, mapError_eq_ok.mp signed,
      mapError_eq_ok.mp identified⟩

/-- A short name with which a block is read is its own. -/
theorem kid_of_ofMembers (h : ofMembers members = .ok block)
    (some : valueAt members "kid" ≠ .null) : valueAt members "kid" = .str block.kid := by
  rw [ofMembers_of_parts (parts_of_ofMembers h)] at h
  obtain ⟨_, h⟩ := guard_eq_ok.mp h
  obtain ⟨_, h⟩ := guard_eq_ok.mp h
  split at h
  · rename_i absent
    exact absurd absent some
  · split at h
    · rename_i same
      exact Json.eq_str_of_equalsText same
    · exact absurd h throw_ne_ok

/-- A value that is refused as a block, as a problem of integrity. -/
def IsRefused (value : Json) : Prop :=
  ∃ e, ofJson value = .error e ∧ e.toProblem.kind = .integrity

/-- An object with the short name of another block than that of its parts is refused. -/
theorem isRefused_of_other_kid {t : Text} (parts : HasParts members block)
    (kid : valueAt members "kid" = .str t) (different : t ≠ block.kid) :
    IsRefused (.obj members) := by
  show ∃ e, ofMembers members = .error e ∧ _
  rw [ofMembers_of_parts parts, kid]
  have unequal : (Json.str t).equalsText block.kid = false := beq_false_of_ne different
  by_cases size : block.digest.length ≠ digestSize
  · exact ⟨.digestSize, if_pos size, rfl⟩
  · by_cases empty : (block.signature.isEmpty || block.identity.isEmpty) = true
    · refine ⟨.missing, ?_, rfl⟩
      rw [if_neg size, if_pos empty]
      rfl
    · refine ⟨.kid, ?_, rfl⟩
      rw [if_neg size, if_neg empty]
      simp only [unequal, Bool.false_eq_true, if_false]
      rfl

/-! ## Another value in an object -/

theorem valueAt_put_self (members : Members) (key : Text) (value : Json) :
    valueAt (members.put key value) key = value := by
  induction members with
  | nil => simp [valueAt, Members.put, Members.get?]
  | cons m rest ih =>
      obtain ⟨k, v⟩ := m
      unfold valueAt at ih ⊢
      rw [Members.put]
      by_cases same : k = key
      · rw [if_pos same, Members.get?, if_pos rfl]
        rfl
      · rw [if_neg same, Members.get?, if_neg same]
        exact ih

theorem valueAt_put_of_ne {key other : Text} (different : key ≠ other) (members : Members)
    (value : Json) : valueAt (members.put key value) other = valueAt members other := by
  induction members with
  | nil => simp [valueAt, Members.put, Members.get?, different]
  | cons m rest ih =>
      obtain ⟨k, v⟩ := m
      unfold valueAt at ih ⊢
      rw [Members.put]
      by_cases same : k = key
      · subst same
        rw [if_pos rfl, Members.get?, Members.get?, if_neg different, if_neg different]
      · rw [if_neg same, Members.get?, Members.get?]
        split
        · rfl
        · exact ih

theorem HasParts.put_algorithm {algorithm : Algorithm} (parts : HasParts members block)
    (named : Algorithm.ofName? value.textOrEmpty = some algorithm) :
    HasParts (members.put "algorithm" value) { block with algorithm } where
  algorithm := by rwa [valueAt_put_self]
  digest := by
    rw [valueAt_put_of_ne (by decide)]
    exact parts.digest
  signature := by
    rw [valueAt_put_of_ne (by decide)]
    exact parts.signature
  identity := by
    rw [valueAt_put_of_ne (by decide)]
    exact parts.identity

theorem HasParts.put_identity {identity : Bytes} (parts : HasParts members block)
    (read : Base64.decode value.textOrEmpty = .ok identity) :
    HasParts (members.put "signer_identity" value) { block with identity } where
  algorithm := by
    rw [valueAt_put_of_ne (by decide)]
    exact parts.algorithm
  digest := by
    rw [valueAt_put_of_ne (by decide)]
    exact parts.digest
  signature := by
    rw [valueAt_put_of_ne (by decide)]
    exact parts.signature
  identity := by rwa [valueAt_put_self]

/-! ## Short names -/

/-- A short name starts as its scheme does. -/
theorem take_identityName (algorithm : Algorithm) (identity : Bytes) :
    (identityName algorithm.name identity).take 2 = algorithm.name.take 2 := by
  cases algorithm <;> rfl

/-- The short names of two schemes differ, whatever the identities. -/
theorem identityName_ne {first second : Algorithm} (different : first ≠ second)
    (identity other : Bytes) :
    identityName first.name identity ≠ identityName second.name other := by
  intro same
  have starts := congrArg (fun t : Text => t.take 2) same
  simp only [take_identityName] at starts
  have apart : ∀ a b : Algorithm, a.name.take 2 = b.name.take 2 → a = b := by
    intro a b
    cases a <;> cases b <;> decide
  exact different (apart _ _ starts)

/-- Two identities with one short name are the same, unless they collide. -/
theorem eq_or_collide_of_identityName {scheme : Text} {identity other : Bytes}
    (same : identityName scheme identity = identityName scheme other) :
    identity = other ∨ Sha256.Collide identity other := by
  have letters : Base64.encode (Sha256.digest identity) = Base64.encode (Sha256.digest other) :=
    List.append_cancel_left same
  have digests := Base64.decode_encode (Sha256.digest identity)
  rw [letters, Base64.decode_encode] at digests
  exact Sha256.eq_or_collide (Except.ok.inj digests).symm

/-- A well-formed block has bytes of printing ASCII, and the value that they hold is read as the
block. An object that is read with a short name is refused with another scheme in it, and with
another identity in it, unless the two identities collide. -/
theorem round_trip_and_binding :
    (∀ block : SignatureBlock, block.IsWellFormed →
      ∃ bytes text read, block.toJson.storedBytes = .ok bytes ∧ Bytes.ArePrinting bytes ∧
        Utf8.decode bytes = .ok text ∧ Json.read text = .ok read ∧ ofJson read = .ok block) ∧
    ∀ (members : Members) (block : SignatureBlock), ofJson (.obj members) = .ok block →
      valueAt members "kid" ≠ .null →
      (∀ value algorithm, Algorithm.ofName? value.textOrEmpty = some algorithm →
        algorithm ≠ block.algorithm → IsRefused (.obj (members.put "algorithm" value))) ∧
      ∀ value identity, Base64.decode value.textOrEmpty = .ok identity →
        identity ≠ block.identity → IsRefused (.obj (members.put "signer_identity" value)) ∨
          Sha256.Collide block.identity identity := by
  refine ⟨fun _ h => storedBytes_toJson h, fun members block read some => ?_⟩
  have parts := parts_of_ofMembers read
  have kid := kid_of_ofMembers read some
  constructor
  · intro value algorithm named different
    have kept : valueAt (members.put "algorithm" value) "kid" = .str block.kid := by
      rw [valueAt_put_of_ne (by decide), kid]
    exact isRefused_of_other_kid (parts.put_algorithm named) kept
      (identityName_ne different.symm _ _)
  · intro value identity decoded different
    have kept : valueAt (members.put "signer_identity" value) "kid" = .str block.kid := by
      rw [valueAt_put_of_ne (by decide), kid]
    by_cases same : block.kid = identityName block.algorithm.name identity
    · right
      exact (eq_or_collide_of_identityName same).resolve_left different.symm
    · left
      exact isRefused_of_other_kid (parts.put_identity decoded) kept same

end SignatureBlock

namespace Sample

open SignatureBlock

/-- A block whose parts have one, two and three bytes behind whole groups of three. -/
def lettered : SignatureBlock :=
  ⟨.ecdsaP256, List.replicate 32 0xFF, [1, 2, 3, 4, 5], [0x4E, 0xBB, 0x9E]⟩

/-- An object that no block is written as: its identity is not a text, and its digest has capitals
and blanks. -/
def unusual : Members := [
  ("signer_identity", .bool true),
  ("digest", .str ("sha256:" ++ (List.replicate 32 ("FF " : Text)).flatten)),
  ("algorithm", .str "ecdsa-p256-sha256"),
  ("signature", .str "AQIDBAU="),
  ("kid", .str lettered.kid)]

set_option maxRecDepth 100000 in
/-- The block is read from its own bytes and from the unusual object, which is refused with the
other scheme, and with a number that stands for another identity. -/
theorem round_trip_and_binding_of_unusual :
    (∃ bytes text read, lettered.toJson.storedBytes = .ok bytes ∧ Utf8.decode bytes = .ok text ∧
      Json.read text = .ok read ∧ ofJson read = .ok lettered) ∧
    ofJson (.obj unusual) = .ok lettered ∧
    IsRefused (.obj (unusual.put "algorithm" (.str "ed25519"))) ∧
    IsRefused (.obj (unusual.put "signer_identity" (.int 1234))) := by
  have accepted :
      passes (ofJson (.obj unusual)) (fun block => decide (block = lettered)) = true := by
    decide +kernel
  obtain ⟨_, read, same⟩ := exists_of_passes accepted
  obtain rfl := of_decide_eq_true same
  have decoded : passes (Base64.decode (Json.int 1234).textOrEmpty)
      (fun identity => decide (identity = [0xD7, 0x6D, 0xF8])) = true := by decide +kernel
  obtain ⟨_, decoded, same⟩ := exists_of_passes decoded
  obtain rfl := of_decide_eq_true same
  obtain ⟨writes, binds⟩ := round_trip_and_binding
  obtain ⟨bytes, text, value, stored, _, rest⟩ := writes lettered ⟨by decide, by decide, by decide⟩
  have kid : valueAt unusual "kid" = .str lettered.kid := rfl
  obtain ⟨schemes, identities⟩ := binds unusual lettered read (by simp [kid])
  refine ⟨⟨bytes, text, value, stored, rest⟩, read, schemes _ .ed25519 (by decide) (by decide), ?_⟩
  refine (identities _ _ decoded (by decide)).resolve_right fun collide => ?_
  exact absurd collide.2 (by decide +kernel)

end Sample

end ModulePackaging
