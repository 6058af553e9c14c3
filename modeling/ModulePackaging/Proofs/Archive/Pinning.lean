import ModulePackaging.Proofs.Archive.Accepted

/-!
# The manifest pins the content

An archive is made of its manifest and of contents whose digests the manifest lists, and of nothing
else. So two files that hold one manifest hold one archive, however their containers are laid out,
unless they hold under some name two contents that collide.
-/

namespace ModulePackaging

namespace Archive

variable {archive archive' : Archive} {container container' : Zip.Container}
  {module module' name name' : Text} {data data' : Bytes} {members members' : Members}
  {d d' : Descriptor} {listing listing' : List Json} {start c c' : Collected}

/-- Under some name two containers hold contents that collide. -/
def HoldCollision (container container' : Zip.Container) : Prop :=
  ∃ name data data', container.read? name = some (.ok data) ∧
    container'.read? name = some (.ok data') ∧ Sha256.Collide data data'

/-- An entry of a listing pins the name and the content of a member. -/
theorem listedContent_pinned {entry : Json} (h : listedContent container entry = .ok (name, data))
    (h' : listedContent container' entry = .ok (name', data')) :
    name = name' ∧ (data = data' ∨ HoldCollision container container') := by
  obtain ⟨members, rfl, path, _, label, found⟩ := listedContent_eq_ok h
  obtain ⟨_, same, path', _, label', found'⟩ := listedContent_eq_ok h'
  obtain rfl := Json.obj.inj same
  obtain rfl := Json.str.inj (path.symm.trans path')
  have digests := Sha256.digest_eq_of_label_eq (Json.str.inj (label.symm.trans label'))
  refine ⟨rfl, ?_⟩
  rcases Sha256.eq_or_collide digests with same | collide
  · exact .inl same
  · exact .inr ⟨name, data, data', found, found', collide⟩

/-- A listing pins what is collected with it. -/
theorem collect_pinned {entries : List Json}
    (h : collect container module start entries = .ok c)
    (h' : collect container' module start entries = .ok c') :
    c = c' ∨ HoldCollision container container' := by
  induction entries generalizing start with
  | nil => exact .inl (Except.ok.inj (h.symm.trans h'))
  | cons entry rest ih =>
      rw [collect] at h h'
      obtain ⟨⟨name, data⟩, content, h⟩ := bind_eq_ok.mp h
      obtain ⟨next, added, h⟩ := bind_eq_ok.mp h
      obtain ⟨⟨name', data'⟩, content', h'⟩ := bind_eq_ok.mp h'
      obtain ⟨next', added', h'⟩ := bind_eq_ok.mp h'
      obtain ⟨rfl, rfl | collision⟩ := listedContent_pinned content content'
      · obtain rfl := Except.ok.inj (added.symm.trans added')
        exact ih h h'
      · exact .inr collision

/-- Archives that come out of two containers with one manifest are the same, field by field. -/
theorem IsRead.eq_of_manifest (h : IsRead container archive members d listing module c)
    (h' : IsRead container' archive' members' d' listing' module' c')
    (same : archive.manifest = archive'.manifest) :
    archive = archive' ∨ HoldCollision container container' := by
  -- The manifest tells all but the artifact and the resources, and those are what is collected.
  obtain rfl := Except.ok.inj (h.known.symm.trans (same ▸ h'.known))
  obtain rfl := Except.ok.inj (h.descriptor.symm.trans h'.descriptor)
  obtain rfl := Except.ok.inj (h.listed.symm.trans h'.listed)
  obtain rfl := Except.ok.inj (h.modulePath.symm.trans h'.modulePath)
  have signature := Except.ok.inj (h.signature.symm.trans h'.signature)
  have hostApi := Except.ok.inj (h.hostApi.symm.trans h'.hostApi)
  rcases collect_pinned h.collected h'.collected with rfl | collision
  · left
    have artifact := Option.some.inj (h.artifact.symm.trans h'.artifact)
    have resources := h.resources.trans h'.resources.symm
    have descriptor := h.draft.trans h'.draft.symm
    cases archive
    cases archive'
    simp only at same signature hostApi artifact resources descriptor
    subst same signature hostApi artifact resources descriptor
    rfl
  · exact .inr collision

/-- Two files from which archives are read have containers that hold the manifests of the archives;
and if those are one manifest, the archives are the same in every field, or the containers hold two
different contents of one digest under one name. -/
theorem manifest_pins_content {files files' : Files.Tree} {p p' : Path}
    (read : readFrom files p = .ok archive) (also : readFrom files' p' = .ok archive') :
    ∃ container container', containerIn files p = .ok container ∧
      containerIn files' p' = .ok container' ∧
      container.read? Layout.manifestPath = some (.ok archive.manifest) ∧
      container'.read? Layout.manifestPath = some (.ok archive'.manifest) ∧
      (archive.manifest = archive'.manifest →
        archive = archive' ∨ HoldCollision container container') := by
  unfold readFrom at read also
  obtain ⟨container, opened, read⟩ := bind_eq_ok.mp read
  obtain ⟨container', openedAlso, also⟩ := bind_eq_ok.mp also
  obtain ⟨_, _, _, _, _, isRead⟩ := isRead_of_ofContainer read
  obtain ⟨_, _, _, _, _, isReadAlso⟩ := isRead_of_ofContainer also
  exact ⟨container, container', opened, openedAlso, isRead.manifest, isReadAlso.manifest,
    isRead.eq_of_manifest isReadAlso⟩

end Archive

namespace Sample

open Archive

set_option maxRecDepth 100000 in
/-- A package and the same one behind a byte that belongs to nothing are read as one archive. -/
theorem manifest_pins_content_behind :
    ∃ bytes archive archive', readFrom (received bytes) incoming = .ok archive ∧
      readFrom (received (0x23 :: bytes)) incoming = .ok archive' ∧
      archive.manifest = archive'.manifest ∧
      ∃ container container', containerIn (received bytes) incoming = .ok container ∧
        containerIn (received (0x23 :: bytes)) incoming = .ok container' ∧
        (archive = archive' ∨ HoldCollision container container') := by
  have run : passes (uncheckedManifest ["a"]).storedBytes (fun manifest =>
      passes (unchecked ["a"] manifest).toBytes fun bytes =>
        passes (readFrom (received bytes) incoming) fun archive =>
          passes (readFrom (received (0x23 :: bytes)) incoming) fun archive' =>
            decide (archive.manifest = archive'.manifest)) = true := by
    decide +kernel
  obtain ⟨manifest, _, run⟩ := exists_of_passes run
  obtain ⟨bytes, _, run⟩ := exists_of_passes run
  obtain ⟨archive, read, run⟩ := exists_of_passes run
  obtain ⟨archive', also, run⟩ := exists_of_passes run
  have same := of_decide_eq_true run
  obtain ⟨container, container', opened, openedAlso, _, _, pinned⟩ :=
    manifest_pins_content read also
  exact ⟨bytes, archive, archive', read, also, same, container, container', opened, openedAlso,
    pinned same⟩

end Sample

end ModulePackaging
