import ModulePackaging.Archive.Read
import ModulePackaging.Proofs.Descriptors
import ModulePackaging.Proofs.Signing.Blocks
import ModulePackaging.Proofs.Versions

/-!
# Manifests are read back

Every part of a manifest that assembling writes is taken by the reader for what was written: the
descriptor, the signature, the version of the host and the listing of the members.
-/

namespace ModulePackaging

/-! ## The version of the host -/

/-- An entry as registering one leaves it: its version was read from a text, and its flags are kept
as sets. -/
structure ApiEntry.IsCanonical (e : ApiEntry) : Prop where
  version : ∃ t, Version.parse t = .ok e.version
  flags : flagSet e.flags = e.flags
  removedFlags : flagSet e.removedFlags = e.removedFlags

namespace RecordedFlags

/-- A set of flags is read back from the array of its texts. -/
theorem ofJson_texts {flags : List Text} (set : flagSet flags = flags) :
    ofJson (Json.texts flags) = .ok (.texts flags) := by
  cases flags with
  | nil => rfl
  | cons flag rest =>
      have found : ofValues? ((flag :: rest).map Json.str) = some (.texts (flag :: rest)) := by
        unfold ofValues?
        simp only [Json.mapM_text?, set]
      unfold ofJson
      rw [if_neg (by simp [Json.texts, Json.isTruthy])]
      simp only [Json.texts, valuesOf?, found]

end RecordedFlags

namespace ApiEntry

/-- The members of the object of an entry. -/
def members (e : ApiEntry) : Members := [
  ("version", .str e.version.toText),
  ("feature_flags", .texts e.flags),
  ("min_supported", .bool e.minSupported),
  ("forward_compatible", .bool e.forwardCompatible),
  ("removed_flags", .texts e.removedFlags)]

theorem nodup_keys_members (e : ApiEntry) : (e.members.map Prod.fst).Nodup := by
  show (["version", "feature_flags", "min_supported", "forward_compatible", "removed_flags"] :
    List Text).Nodup
  decide

/-- A member of the object of an entry is found under its key in the object in order. -/
theorem get?_inOrder {e : ApiEntry} {key : Text} {v : Json} (h : (key, v) ∈ e.members) :
    Members.get? key (Json.Style.inKeyOrder (Json.membersInOrder e.members)) = some v.inOrder :=
  Json.get?_of_mem e.nodup_keys_members h

theorem storable_toJson (e : ApiEntry) (depth : Nat) : Json.Storable (depth + 2) e.toJson := by
  apply Json.Storable.obj e.nodup_keys_members
  simp only [members, List.forall_mem_cons, List.not_mem_nil, false_implies, implies_true, and_true]
  exact ⟨.str _, Json.storable_texts depth _, .bool _, .bool _, Json.storable_texts depth _⟩

end ApiEntry

namespace Archive

/-- The version of the host is read back from its object. -/
theorem recordedApi_inOrder {e : ApiEntry} (h : e.IsCanonical) :
    recordedApi e.toJson.inOrder = .ok (some e.recorded) := by
  obtain ⟨t, parsed⟩ := h.version
  show recordedApi (.obj (Json.Style.inKeyOrder (Json.membersInOrder e.members))) = _
  have version : Members.get? "version" _ = some (Json.str e.version.toText) :=
    ApiEntry.get?_inOrder (.head _)
  have flags : Members.get? "feature_flags" _ = some (Json.texts e.flags).inOrder :=
    ApiEntry.get?_inOrder (.tail _ (.head _))
  have minSupported : Members.get? "min_supported" _ = some (Json.bool e.minSupported) :=
    ApiEntry.get?_inOrder (.tail _ (.tail _ (.head _)))
  have forward : Members.get? "forward_compatible" _ = some (Json.bool e.forwardCompatible) :=
    ApiEntry.get?_inOrder (.tail _ (.tail _ (.tail _ (.head _))))
  have removed : Members.get? "removed_flags" _ = some (Json.texts e.removedFlags).inOrder :=
    ApiEntry.get?_inOrder (.tail _ (.tail _ (.tail _ (.tail _ (.head _)))))
  generalize Json.Style.inKeyOrder (Json.membersInOrder e.members) = found at *
  rw [Json.inOrder_texts] at flags removed
  unfold recordedApi
  simp only [valueAt, version, flags, minSupported, forward, removed, Option.getD_some,
    Json.inMessage, Version.parse_toText (Version.isReadable_of_parse parsed),
    RecordedFlags.ofJson_texts h.flags, RecordedFlags.ofJson_texts h.removedFlags, bind, Except.bind]
  rfl

end Archive

/-! ## The listing -/

namespace ListedMember

/-- The members of the object that lists a member of an archive. -/
def members (m : ListedMember) : Members := [
  ("path", .str m.path),
  ("size", .int m.size),
  ("sha256", .str m.digest),
  ("kind", .str (if m.isModule then "module" else "resource"))]

theorem nodup_keys_members (m : ListedMember) : (m.members.map Prod.fst).Nodup := by
  show (["path", "size", "sha256", "kind"] : List Text).Nodup
  decide

theorem storable_toJson {m : ListedMember} (short : Decimal.isLong m.size = false) (depth : Nat) :
    Json.Storable (depth + 1) m.toJson := by
  apply Json.Storable.obj m.nodup_keys_members
  simp only [members, List.forall_mem_cons, List.not_mem_nil, false_implies, implies_true, and_true]
  exact ⟨.str _, .int short, .str _, .str _⟩

/-- What is listed of a member is found under its key in the object in order. -/
theorem valueAt_inOrder {m : ListedMember} {key : Text} {v : Json} (h : (key, v) ∈ m.members) :
    Archive.valueAt (Json.Style.inKeyOrder (Json.membersInOrder m.members)) key = v.inOrder := by
  rw [Archive.valueAt, Json.get?_of_mem m.nodup_keys_members h, Option.getD_some]

end ListedMember

namespace Archive

/-- What the listing tells of a member that a container has is what the container has. -/
theorem listedContent_inOrder {container : Zip.Container} {path : Text} {content : Bytes}
    (found : container.read? path = some (.ok content)) (isModule : Bool) :
    listedContent container (ListedMember.of path content isModule).toJson.inOrder =
      .ok (path, content) := by
  obtain ⟨m, listed⟩ : ∃ m, m = ListedMember.of path content isModule := ⟨_, rfl⟩
  have path' : m.path = path := by rw [listed]; rfl
  have size' : m.size = content.length := by rw [listed]; rfl
  have digest' : m.digest = Sha256.label content := by rw [listed]; rfl
  rw [← listed]
  show listedContent container (.obj (Json.Style.inKeyOrder (Json.membersInOrder m.members))) = _
  have path : valueAt _ "path" = .str m.path := m.valueAt_inOrder (.head _)
  have size : valueAt _ "size" = .int m.size := m.valueAt_inOrder (.tail _ (.head _))
  have digest : valueAt _ "sha256" = .str m.digest :=
    m.valueAt_inOrder (.tail _ (.tail _ (.head _)))
  generalize Json.Style.inKeyOrder (Json.membersInOrder m.members) = members at *
  rw [path'] at path
  rw [size'] at size
  rw [digest'] at digest
  have sameSize : (Json.int (content.length : Int)).equalsInt content.length = true :=
    Json.equalsInt_self _
  have sameDigest : (Json.str (Sha256.label content)).equalsText (Sha256.label content) = true :=
    beq_self_eq_true _
  unfold listedContent
  simp only [path, found, size, digest, sameSize, sameDigest, mapError_ok, bind, Except.bind,
    Bool.not_true, Bool.false_eq_true, if_false]
  rfl

/-- A listed member that a container has not is missing. -/
theorem listedContent_missing {container : Zip.Container} {path : Text}
    (absent : container.read? path = none) (content : Bytes) (isModule : Bool) :
    listedContent container (ListedMember.of path content isModule).toJson.inOrder =
      refuse (.memberMissing path) := by
  obtain ⟨m, listed⟩ : ∃ m, m = ListedMember.of path content isModule := ⟨_, rfl⟩
  have path' : m.path = path := by rw [listed]; rfl
  rw [← listed]
  show listedContent container (.obj (Json.Style.inKeyOrder (Json.membersInOrder m.members))) = _
  have path : valueAt _ "path" = .str m.path := m.valueAt_inOrder (.head _)
  generalize Json.Style.inKeyOrder (Json.membersInOrder m.members) = members at *
  rw [path'] at path
  unfold listedContent
  simp only [path, absent]

/-! ## The manifest -/

section Manifest

variable {d : Descriptor} {listing : List ListedMember} {block : SignatureBlock}
  {hostApi : Option ApiEntry} {bytes : Bytes}

/-- The version of the host in a manifest; null if the archive is for none. -/
def hostApiJson : Option ApiEntry → Json
  | some entry => entry.toJson
  | none => .null

/-- A listing in the order of its paths. -/
def inPathOrder (listing : List ListedMember) : List ListedMember :=
  sortedBy (fun a b => decide (a.path ≤ b.path)) listing

/-- The members of a manifest. -/
def manifestFields (d : Descriptor) (listing : List ListedMember) (block : SignatureBlock)
    (hostApi : Option ApiEntry) : Members := [
  ("format", .str formatName),
  ("format_version", .int formatVersion),
  ("descriptor", d.toJson),
  ("host_api", hostApiJson hostApi),
  ("resources", .arr ((inPathOrder listing).map ListedMember.toJson)),
  ("signature", block.toJson)]

theorem manifestJson_eq : manifestJson d.toJson listing block hostApi =
    .obj (manifestFields d listing block hostApi) := by
  cases hostApi <;> rfl

theorem nodup_keys_manifestFields :
    ((manifestFields d listing block hostApi).map Prod.fst).Nodup := by
  show (["format", "format_version", "descriptor", "host_api", "resources", "signature"] :
    List Text).Nodup
  decide

/-- The members of a manifest in the order in which they are stored. -/
def storedFields (d : Descriptor) (listing : List ListedMember) (block : SignatureBlock)
    (hostApi : Option ApiEntry) : Members :=
  Json.Style.inKeyOrder (Json.membersInOrder (manifestFields d listing block hostApi))

/-- A member of a manifest is found under its key. -/
theorem valueAt_storedFields {key : Text} {v : Json}
    (h : (key, v) ∈ manifestFields d listing block hostApi) :
    valueAt (storedFields d listing block hostApi) key = v.inOrder := by
  rw [valueAt, storedFields, Json.get?_of_mem nodup_keys_manifestFields h, Option.getD_some]

theorem valueAt_descriptor :
    valueAt (storedFields d listing block hostApi) "descriptor" = d.toJson.inOrder :=
  valueAt_storedFields (.tail _ (.tail _ (.head _)))

theorem valueAt_hostApi :
    valueAt (storedFields d listing block hostApi) "host_api" = (hostApiJson hostApi).inOrder :=
  valueAt_storedFields (.tail _ (.tail _ (.tail _ (.head _))))

theorem valueAt_signature :
    valueAt (storedFields d listing block hostApi) "signature" = block.toJson.inOrder :=
  valueAt_storedFields (.tail _ (.tail _ (.tail _ (.tail _ (.tail _ (.head _))))))

/-- A stored manifest holds no long number and no surrogate that stands alone. -/
theorem short_of_stored
    (h : (manifestJson d.toJson listing block hostApi).storedBytes = .ok bytes) :
    Decimal.isLong d.numericId = false ∧ (∀ m ∈ listing, Decimal.isLong m.size = false) ∧
      ∀ m ∈ listing, m.path.IsEncodable := by
  rw [manifestJson_eq] at h
  obtain ⟨short, written⟩ := Json.storedBytes_eq_ok.mp h
  obtain ⟨encodable, _⟩ := Utf8.encode_eq_ok.mp written
  rw [Json.holdsLong_obj] at short
  rw [Json.canonicalText, Json.Style.isEncodable_write_obj] at encodable
  have numbers : ∀ m ∈ manifestFields d listing block hostApi, m.2.holdsLong = false := by
    intro m member
    simpa using List.any_eq_false.mp short m member
  have descriptor := numbers ("descriptor", d.toJson) (.tail _ (.tail _ (.head _)))
  have sizes := numbers ("resources", .arr ((inPathOrder listing).map ListedMember.toJson))
    (.tail _ (.tail _ (.tail _ (.tail _ (.head _)))))
  have paths := (encodable ("resources", .arr ((inPathOrder listing).map ListedMember.toJson))
    (.tail _ (.tail _ (.tail _ (.tail _ (.head _)))))).2
  rw [Json.holdsLong_arr] at sizes
  rw [Json.Style.isEncodable_write_arr] at paths
  refine ⟨?_, ?_, ?_⟩
  · rw [← Descriptor.holdsLong_toJson]
    exact descriptor
  · intro m member
    have each := List.any_eq_false.mp sizes m.toJson
      (List.mem_map_of_mem (mem_sortedBy.mpr member))
    have object : m.toJson = .obj m.members := rfl
    rw [object, Json.holdsLong_obj, Bool.not_eq_true] at each
    have size := List.any_eq_false.mp each ("size", .int m.size) (.tail _ (.head _))
    rw [Json.holdsLong_int] at size
    simpa using size
  · intro m member
    have each := paths m.toJson (List.mem_map_of_mem (mem_sortedBy.mpr member))
    have object : m.toJson = .obj m.members := rfl
    rw [object, Json.Style.isEncodable_write_obj] at each
    have path := (each ("path", .str m.path) (.head _)).2
    exact Json.Style.isEncodable_write_str.mp path

/-- The bytes of a manifest are read as its members. -/
theorem manifestMembers_of_stored
    (h : (manifestJson d.toJson listing block hostApi).storedBytes = .ok bytes) :
    manifestMembers bytes = .ok (storedFields d listing block hostApi) := by
  obtain ⟨short, sizes, _⟩ := short_of_stored h
  rw [manifestJson_eq] at h
  obtain ⟨_, written⟩ := Json.storedBytes_eq_ok.mp h
  have storable : Json.Storable Json.nestingLimit (.obj (manifestFields d listing block hostApi)) := by
    show Json.Storable (986 + 4) _
    apply Json.Storable.obj nodup_keys_manifestFields
    simp only [manifestFields, List.forall_mem_cons, List.not_mem_nil, false_implies, implies_true,
      and_true]
    refine ⟨.str _, .int (by decide), Descriptor.storable_toJson short _, ?_, .arr ?_, ?_⟩
    · cases hostApi with
      | none => exact .null
      | some entry => exact entry.storable_toJson _
    · intro v member
      obtain ⟨m, listed, rfl⟩ := List.mem_map.mp member
      exact m.storable_toJson (sizes m (mem_sortedBy.mp listed)) _
    · exact block.storable_toJson _
  have value : manifestValue bytes = .ok (.obj (storedFields d listing block hostApi)) := by
    unfold manifestValue
    rw [Utf8.decode_encode written]
    simp only [Json.read_canonicalText_alone storable]
    rfl
  have format : valueAt (storedFields d listing block hostApi) "format" = .str formatName :=
    valueAt_storedFields (.head _)
  have version : valueAt (storedFields d listing block hostApi) "format_version" =
      .int formatVersion := valueAt_storedFields (.tail _ (.head _))
  have same : (Json.str formatName).equalsText formatName = true := beq_self_eq_true _
  unfold manifestMembers
  simp only [value, format, version, same, bind, Except.bind, Bool.not_true, Bool.false_eq_true,
    if_false]
  rfl

end Manifest

end Archive

end ModulePackaging
