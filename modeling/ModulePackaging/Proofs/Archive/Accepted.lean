import ModulePackaging.Proofs.Archive.Extraction
import ModulePackaging.Proofs.Archive.ReadBack

/-!
# Archives from outside

What reading makes sure of, whoever wrote the archive: its members are the manifest, the module and
the resources, each under its name once. The rules for paths that assembling keeps are not among the
checks, so the archive obeys them only if the names in the container do and no resource is listed
twice.
-/

namespace ModulePackaging

namespace Archive

variable {archive : Archive} {container : Zip.Container} {module name : Text} {data : Bytes}
  {c c' : Collected}

/-- What is refused is no archive. -/
theorem refuse_ne_ok {α : Type} {e : ReadError} {a : α} : refuse e ≠ .ok a := by
  simp [refuse]

/-! ## The rules of assembling -/

/-- The paths of all members of an archive. -/
def paths (archive : Archive) (module : Text) : List Text :=
  Layout.manifestPath :: module :: archive.resources.map fun r => Layout.resourcePath r.path

theorem mem_paths : name ∈ archive.paths module ↔ name = Layout.manifestPath ∨ name = module ∨
    ∃ r ∈ archive.resources, Layout.resourcePath r.path = name := by
  rw [paths, List.mem_cons, List.mem_cons, List.mem_map]

/-- What assembling makes sure of: the resources have normal paths, and the members can be
together. -/
structure ObeysLayout (archive : Archive) (module : Text) : Prop where
  normal : ∀ r ∈ archive.resources, Layout.normalize r.path = .ok r.path
  together : Layout.check (archive.paths module) = .ok ()

/-- Resources at the normal forms of their paths have plain paths. -/
theorem normal_of_normalized {resources normal : List Resource}
    (h : resources.mapM Resource.normalize = .ok normal) :
    ∀ r ∈ normal, Layout.IsPlain r.path := by
  intro r member
  obtain ⟨_, _, normalized⟩ := Resource.exists_of_normalized h r member
  exact Layout.isPlain_of_normalize normalized

/-- An assembled archive obeys the rules. -/
theorem obeysLayout_of_assemble {draft : Draft} {artifact : Bytes} {block : SignatureBlock}
    {resources : List Resource} {hostApi : Option ApiEntry}
    (h : assemble draft artifact block resources hostApi = .ok archive) :
    ∃ module, archive.modulePath = .ok module ∧ archive.ObeysLayout module := by
  unfold assemble at h
  obtain ⟨_, h⟩ := guard_eq_ok.mp h
  obtain ⟨normal, normalized, h⟩ := bind_eq_ok.mp h
  obtain ⟨module, modulePath, h⟩ := bind_eq_ok.mp h
  obtain ⟨_, laid, h⟩ := bind_eq_ok.mp h
  obtain ⟨json, _, h⟩ := bind_eq_ok.mp h
  simp only at h
  obtain ⟨bytes, _, h⟩ := bind_eq_ok.mp h
  obtain rfl := Except.ok.inj h
  obtain ⟨_, _, together⟩ := bind_eq_ok.mp (mapError_eq_ok.mp laid)
  have order := sortedBy_perm (fun a b : Resource => decide (a.path ≤ b.path)) normal
  refine ⟨module, modulePath, ?_, ?_⟩
  · intro r member
    have plain := normal_of_normalized (mapError_eq_ok.mp normalized) r (mem_sortedBy.mp member)
    exact plain.normalize_eq
  · have same : (Layout.manifestPath :: module ::
        (Resource.sorted normal).map fun r => Layout.resourcePath r.path).Perm
        (Layout.manifestPath :: module :: normal.map fun r => Layout.resourcePath r.path) :=
      ((order.map _).cons _).cons _
    exact (Layout.check_eq_ok_of_perm same).mpr together

/-! ## Collecting -/

/-- What is collected from a container: the listed names are those of members, and all of them but
that of the module are the paths of the resources. -/
structure Collected.Fits (c : Collected) (container : Zip.Container) (module : Text) : Prop where
  found : ∀ name ∈ c.listed, name ∈ container.names
  taken : c.artifact ≠ none → module ∈ c.listed
  resources : c.resources.map (fun r => Layout.resourcePath r.path) =
    c.listed.filter (· ≠ module)

/-- A listed name is that of the module or the path of a resource. -/
theorem Collected.Fits.mem_listed (h : c.Fits container module) (member : name ∈ c.listed) :
    name = module ∨ ∃ r ∈ c.resources, Layout.resourcePath r.path = name := by
  by_cases isModule : name = module
  · exact .inl isModule
  · have kept : name ∈ c.listed.filter (· ≠ module) :=
      List.mem_filter.mpr ⟨member, by simpa using isModule⟩
    rw [← h.resources] at kept
    exact .inr (List.mem_map.mp kept)

/-- The path of a resource is listed. -/
theorem Collected.Fits.resource_listed (h : c.Fits container module) {r : Resource}
    (member : r ∈ c.resources) : Layout.resourcePath r.path ∈ c.listed := by
  have kept : Layout.resourcePath r.path ∈ c.resources.map fun r => Layout.resourcePath r.path :=
    List.mem_map_of_mem member
  rw [h.resources] at kept
  exact (List.mem_filter.mp kept).1

/-- If no member but the manifest is unlisted, the members are the manifest, the module and the
resources. -/
theorem Collected.Fits.mem_names (h : c.Fits container module)
    (manifest : Layout.manifestPath ∈ container.names) (taken : c.artifact ≠ none)
    (allListed : ∀ name ∈ container.names, name ∉ c.listed → name = Layout.manifestPath) :
    name ∈ container.names ↔ name = Layout.manifestPath ∨ name = module ∨
      ∃ r ∈ c.resources, Layout.resourcePath r.path = name := by
  constructor
  · intro member
    by_cases listed : name ∈ c.listed
    · exact .inr (h.mem_listed listed)
    · exact .inl (allListed name member listed)
  · rintro (rfl | rfl | ⟨r, member, rfl⟩)
    · exact manifest
    · exact h.found _ (h.taken taken)
    · exact h.found _ (h.resource_listed member)

/-- A member that is added fits to what is collected. -/
theorem Collected.Fits.add (h : c.Fits container module) (inside : name ∈ container.names)
    (added : c.add module name data = .ok c') : c'.Fits container module := by
  have found : ∀ other ∈ c.listed ++ [name], other ∈ container.names := by
    intro other member
    rcases List.mem_append.mp member with before | last
    · exact h.found other before
    · rw [List.mem_singleton.mp last]
      exact inside
  -- A listed member is the module, a resource or refused; the first leaves the resources alone.
  unfold Collected.add at added
  split at added
  · rename_i isModule
    obtain rfl := Except.ok.inj added
    refine ⟨found, fun _ => List.mem_append_right _ (isModule ▸ List.mem_cons_self), ?_⟩
    simp only [h.resources, List.filter_append]
    simp [isModule]
  · rename_i other
    split at added
    · rename_i resource
      obtain rfl := Except.ok.inj added
      refine ⟨found, fun some => List.mem_append_left _ (h.taken some), ?_⟩
      obtain ⟨path, rfl⟩ := List.isPrefixOf_iff_prefix.mp resource
      have last : Layout.resourcePath
          ((Layout.resourcesStart ++ path).drop Layout.resourcesStart.length) =
          Layout.resourcesStart ++ path := by
        rw [List.drop_left]
        rfl
      simp only [List.map_append, h.resources, List.map_singleton, last, List.filter_append]
      simp [other]
    · exact absurd added refuse_ne_ok

/-- What an entry of the listing has to say of the content that it gives: the name of a member, and
the size and the label of what that member holds. -/
theorem listedContent_eq_ok {entry : Json}
    (h : listedContent container entry = .ok (name, data)) :
    ∃ members, entry = .obj members ∧ valueAt members "path" = .str name ∧
      (valueAt members "size").equalsInt data.length = true ∧
      valueAt members "sha256" = .str (Sha256.label data) ∧
      container.read? name = some (.ok data) := by
  unfold listedContent at h
  split at h
  · rename_i members
    split at h
    · rename_i listed path
      split at h
      · exact absurd h refuse_ne_ok
      · rename_i content found
        obtain ⟨held, read, h⟩ := bind_eq_ok.mp h
        simp only at h
        split at h
        · exact absurd h refuse_ne_ok
        · rename_i size
          split at h
          · exact absurd h refuse_ne_ok
          · rename_i label
            obtain ⟨rfl, rfl⟩ := Prod.ext_iff.mp (Except.ok.inj h)
            obtain rfl := mapError_eq_ok.mp read
            refine ⟨members, rfl, path, by simpa using size, ?_, found⟩
            exact Json.eq_str_of_equalsText (by simpa using label)
    · exact absurd h refuse_ne_ok
  · exact absurd h refuse_ne_ok

/-- A name of the container has a member. -/
theorem mem_names_of_read {content : Except Zip.Error Bytes}
    (h : container.read? name = some content) : name ∈ container.names := by
  by_contra absent
  rw [Zip.Container.read?_eq_none absent] at h
  exact absurd h (by simp)

/-- What is collected from a whole listing fits. -/
theorem Collected.Fits.collect {entries : List Json} (h : c.Fits container module)
    (collected : Archive.collect container module c entries = .ok c') :
    c'.Fits container module := by
  induction entries generalizing c with
  | nil => exact Except.ok.inj collected ▸ h
  | cons entry rest ih =>
      rw [Archive.collect] at collected
      obtain ⟨⟨name, data⟩, content, collected⟩ := bind_eq_ok.mp collected
      obtain ⟨next, added, collected⟩ := bind_eq_ok.mp collected
      obtain ⟨_, _, _, _, _, found⟩ := listedContent_eq_ok content
      exact ih (h.add (mem_names_of_read found) added) collected

/-! ## Accepted archives -/

/-- An archive that was read from a container: the members are the manifest, the module at a place
of its own and the resources, and no two of them have the same name. -/
structure IsAccepted (container : Zip.Container) (archive : Archive) (module : Text) : Prop where
  modulePath : archive.modulePath = .ok module
  plain : Layout.IsPlain module
  manifest : module ≠ Layout.manifestPath
  resources : ∀ path, module ≠ Layout.resourcePath path
  distinct : container.names.Nodup
  members : ∀ name, name ∈ container.names ↔ name ∈ archive.paths module

/-- The manifest is read only where all names are different, and is the content of its member. -/
theorem manifestOf_eq_ok {place : Text} {bytes : Bytes}
    (h : manifestOf container place = .ok bytes) :
    container.names.Nodup ∧ container.read? Layout.manifestPath = some (.ok bytes) := by
  unfold manifestOf at h
  split at h
  · exact absurd h refuse_ne_ok
  · rename_i distinct
    refine ⟨hasRepetition_eq_false.mp (Bool.eq_false_iff.mpr distinct), ?_⟩
    split at h
    · exact absurd h refuse_ne_ok
    · rename_i content found
      rw [found, mapError_eq_ok.mp h]

/-- How an archive comes out of a container: what its manifest says, and what is collected from the
members that the manifest lists. -/
structure IsRead (container : Zip.Container) (archive : Archive) (members : Members)
    (d : Descriptor) (listing : List Json) (module : Text) (c : Collected) : Prop where
  distinct : container.names.Nodup
  manifest : container.read? Layout.manifestPath = some (.ok archive.manifest)
  known : manifestMembers archive.manifest = .ok members
  descriptor : Descriptor.ofJson (presentOr (valueAt members "descriptor")) = .ok d
  draft : archive.descriptor = d.draft
  signature : SignatureBlock.ofJson (presentOr (valueAt members "signature")) =
    .ok archive.signature
  hostApi : recordedApi (valueAt members "host_api") = .ok archive.hostApi
  listed : listingOf members = .ok listing
  modulePath : d.draft.modulePath = .ok module
  collected : collect container module .nothing listing = .ok c
  allListed : ∀ name ∈ container.names, name ∉ c.listed → name = Layout.manifestPath
  artifact : c.artifact = some archive.artifact
  resources : archive.resources = Resource.sorted c.resources

/-- What is read from a container comes out of it in this way. -/
theorem isRead_of_ofContainer {place : Text} (h : ofContainer container place = .ok archive) :
    ∃ members d listing module c, IsRead container archive members d listing module c := by
  unfold ofContainer at h
  obtain ⟨manifest, stored, h⟩ := bind_eq_ok.mp h
  obtain ⟨members, known, h⟩ := bind_eq_ok.mp h
  obtain ⟨d, descriptor, h⟩ := bind_eq_ok.mp h
  obtain ⟨signature, block, h⟩ := bind_eq_ok.mp h
  obtain ⟨hostApi, recorded, h⟩ := bind_eq_ok.mp h
  obtain ⟨listing, listed, h⟩ := bind_eq_ok.mp h
  obtain ⟨module, modulePath, h⟩ := bind_eq_ok.mp h
  obtain ⟨c, collected, h⟩ := bind_eq_ok.mp h
  simp only at h
  split at h
  · exact absurd h refuse_ne_ok
  · rename_i allListed
    split at h
    · exact absurd h refuse_ne_ok
    · rename_i artifact taken
      obtain rfl := Except.ok.inj h
      obtain ⟨distinct, found⟩ := manifestOf_eq_ok stored
      exact ⟨members, d, listing, module, c, distinct, found, known, mapError_eq_ok.mp descriptor,
        rfl, mapError_eq_ok.mp block, recorded, listed, modulePath, collected,
        by simpa using allListed, taken, rfl⟩

/-- A descriptor that is read from an object is checked. -/
theorem isChecked_of_ofJson {value : Json} {d : Descriptor} (h : Descriptor.ofJson value = .ok d) :
    d.IsChecked := by
  cases value with
  | obj members =>
      rw [Descriptor.ofJson, Descriptor.ofMembers] at h
      obtain ⟨_, h⟩ := guard_eq_ok.mp h
      obtain ⟨_, h⟩ := guard_eq_ok.mp h
      simp only at h
      obtain ⟨_, h⟩ := guard_eq_ok.mp h
      obtain ⟨e, checked, h⟩ := bind_eq_ok.mp h
      split at h
      · exact absurd h throw_ne_ok
      · obtain rfl := Except.ok.inj h
        exact (Draft.check_eq_ok (mapError_eq_ok.mp checked)).2
  | _ => exact absurd h (by simp [Descriptor.ofJson])

section IsRead

variable {members : Members} {d : Descriptor} {listing : List Json}

/-- What is collected in reading fits. -/
theorem IsRead.fits (read : IsRead container archive members d listing module c) :
    c.Fits container module := by
  have start : Collected.nothing.Fits container module :=
    ⟨List.forall_mem_nil _, fun some => absurd rfl some, rfl⟩
  exact start.collect read.collected

/-- What comes out of a container is accepted. -/
theorem IsRead.isAccepted (read : IsRead container archive members d listing module c) :
    IsAccepted container archive module := by
  have checked := isChecked_of_ofJson read.descriptor
  obtain ⟨plain, three⟩ := Draft.modulePath_isPlain checked read.modulePath
  obtain ⟨_, apart, _⟩ := Draft.modulePath_draft checked read.modulePath
  refine ⟨by rw [Archive.modulePath, read.draft, read.modulePath], plain, ?_, ?_, read.distinct, ?_⟩
  · rintro rfl
    exact absurd three (by decide)
  · rintro path rfl
    rw [Layout.startsWith_resourcePath] at apart
    exact absurd apart (by simp)
  · intro name
    have resources : ∀ r, r ∈ archive.resources ↔ r ∈ c.resources := fun _ => by
      rw [read.resources]
      exact mem_sortedBy
    simp only [mem_paths, resources]
    exact read.fits.mem_names (mem_names_of_read read.manifest) (by simp [read.artifact])
      read.allListed

end IsRead

/-- What is read from a container is accepted. -/
theorem isAccepted_of_ofContainer {place : Text}
    (h : ofContainer container place = .ok archive) :
    ∃ module, IsAccepted container archive module := by
  obtain ⟨_, _, _, module, _, read⟩ := isRead_of_ofContainer h
  exact ⟨module, read.isAccepted⟩

/-! ## Which archives obey the rules -/

/-- Names that are fit to be extracted: the resources have plain paths, and no name begins with the
names on the path of another one, even if the case of letters is ignored. -/
structure IsOrderly (names : List Text) : Prop where
  plain : ∀ path, Layout.resourcePath path ∈ names → Layout.IsPlain path
  apart : ∀ name ∈ names, ∀ other ∈ names, other ≠ name →
    ¬ Layout.foldedNames other <+: Layout.foldedNames name

namespace IsAccepted

/-- Exactly the resources of an archive are members below their directory. -/
theorem mem_resources (h : IsAccepted container archive module) {path : Text} :
    Layout.resourcePath path ∈ container.names ↔ ∃ r ∈ archive.resources, r.path = path := by
  rw [h.members, mem_paths]
  constructor
  · rintro (manifest | same | ⟨r, member, same⟩)
    · exact absurd manifest (Layout.resourcePath_ne_manifestPath path)
    · exact absurd same.symm (h.resources path)
    · exact ⟨r, member, Layout.resourcePath_injective same⟩
  · rintro ⟨r, member, rfl⟩
    exact .inr (.inr ⟨r, member, rfl⟩)

/-- The paths of an accepted archive are different if no resource is listed twice. -/
theorem nodup_paths (h : IsAccepted container archive module) :
    (archive.paths module).Nodup ↔ (archive.resources.map Resource.path).Nodup := by
  have module : module ∉ archive.resources.map fun r => Layout.resourcePath r.path := by
    intro member
    obtain ⟨r, _, same⟩ := List.mem_map.mp member
    exact h.resources _ same.symm
  have manifest : Layout.manifestPath ∉
      archive.resources.map fun r => Layout.resourcePath r.path := by
    intro member
    obtain ⟨r, _, same⟩ := List.mem_map.mp member
    exact Layout.resourcePath_ne_manifestPath _ same
  have form : (archive.resources.map fun r => Layout.resourcePath r.path) =
      (archive.resources.map Resource.path).map Layout.resourcePath := by
    rw [List.map_map]
    rfl
  rw [form] at module manifest
  rw [paths, form, List.nodup_cons, List.nodup_cons, List.mem_cons, not_or,
    List.nodup_map_iff Layout.resourcePath_injective]
  exact ⟨fun h => h.2.2, fun once => ⟨⟨Ne.symm h.manifest, manifest⟩, module, once⟩⟩

/-- An accepted archive obeys the rules if the names of its members do and no resource is listed
twice. -/
theorem obeysLayout_iff (h : IsAccepted container archive module) :
    archive.ObeysLayout module ↔
      IsOrderly container.names ∧ (archive.resources.map Resource.path).Nodup := by
  have together : Layout.check (archive.paths module) = .ok () ↔
      (archive.resources.map Resource.path).Nodup ∧
        ∀ name ∈ container.names, ∀ other ∈ container.names, other ≠ name →
          ¬ Layout.foldedNames other <+: Layout.foldedNames name := by
    simp only [Layout.check_eq_ok_iff_apart, h.nodup_paths, h.members]
  have normal : (∀ r ∈ archive.resources, Layout.normalize r.path = .ok r.path) ↔
      ∀ path, Layout.resourcePath path ∈ container.names → Layout.IsPlain path := by
    simp only [Layout.normalize_eq_self_iff, h.mem_resources]
    constructor
    · rintro plain _ ⟨r, member, rfl⟩
      exact plain r member
    · intro plain r member
      exact plain _ ⟨r, member, rfl⟩
  constructor
  · rintro ⟨normals, layout⟩
    obtain ⟨once, apart⟩ := together.mp layout
    exact ⟨⟨normal.mp normals, apart⟩, once⟩
  · rintro ⟨⟨plain, apart⟩, once⟩
    exact ⟨normal.mpr plain, together.mpr ⟨once, apart⟩⟩

/-- The members of an archive with orderly names land apart. -/
theorem landsApart (h : IsAccepted container archive module) (orderly : IsOrderly container.names)
    (target : Files.Location) : Layout.LandsApart target (archive.paths module) := by
  apply Layout.landsApart_of_isPlain
  · intro name member
    rcases mem_paths.mp member with rfl | rfl | ⟨r, resource, rfl⟩
    · exact Layout.isPlain_manifestPath
    · exact h.plain
    · exact (orderly.plain _ ((h.members _).mpr member)).resourcePath
  · simp only [← h.members]
    exact orderly.apart

end IsAccepted

end Archive

namespace Sample

open Archive

/-- Resources of one byte at some paths. -/
def resourcesAt (paths : List Text) : List Resource := paths.map fun path => ⟨path, [1]⟩

/-- The path of the module of a package. -/
def modulePath : Text := "linux64/lib/demo.so"

/-- A package that nobody signed, with resources at paths that nobody looked at. -/
def unchecked (paths : List Text) (manifest : Bytes) : Archive :=
  ⟨sample.draft, [0x4D], ⟨.ed25519, List.replicate 32 0, [0], [0]⟩,
    Resource.sorted (resourcesAt paths), none, manifest⟩

/-- The manifest of the package. -/
def uncheckedManifest (paths : List Text) : Json :=
  manifestJson sample.toJson (listing modulePath [0x4D] (resourcesAt paths))
    ⟨.ed25519, List.replicate 32 0, [0], [0]⟩ none

/-- The files after a package came in. -/
def received (bytes : Bytes) : Files.Tree := ⟨[], [(["in.spkg"], .file bytes 0o644)]⟩

/-- The path of the package that came in. -/
def incoming : Path := Path.ofText "in.spkg"

/-- Whether the package can be written as a container. -/
def isWritable (paths : List Text) : Bool :=
  paths.all (fun path => path.all (· != 0)) &&
    decide (Layout.manifestPath :: modulePath ::
      (resourcesAt paths).map fun r => Layout.resourcePath r.path).Nodup &&
    passes (uncheckedManifest paths).storedBytes fun manifest =>
      decide (unchecked paths manifest).IsNarrow &&
        passes (unchecked paths manifest).toBytes fun bytes => !Zip.seemsWide bytes

/-- A package that can be written is read, whatever the paths of its resources are. -/
theorem exists_received {paths : List Text} (h : isWritable paths = true) :
    ∃ bytes manifest, readFrom (received bytes) incoming = .ok (unchecked paths manifest) := by
  simp only [isWritable, Bool.and_eq_true, decide_eq_true_eq] at h
  obtain ⟨⟨plain, distinct⟩, h⟩ := h
  obtain ⟨manifest, stored, h⟩ := exists_of_passes h
  obtain ⟨narrow, h⟩ := (Bool.and_eq_true _ _).mp h
  obtain ⟨bytes, written, plainEnd⟩ := exists_of_passes h
  have laidOut :
      (unchecked paths manifest).IsLaidOut sample modulePath (resourcesAt paths) none := by
    refine ⟨rfl, by rfl, ?_, rfl, ?_, rfl, by simp, rfl, stored⟩
    · exact ⟨List.length_replicate, List.cons_ne_nil _ _, List.cons_ne_nil _ _⟩
    · rw [names_partsOf]
      exact distinct
  have readable : (unchecked paths manifest).IsReadable bytes := by
    refine ⟨?_, by simpa using plainEnd⟩
    intro r member
    obtain ⟨path, listed, rfl⟩ := List.mem_map.mp (mem_sortedBy.mp member)
    intro zero
    have passed := List.all_eq_true.mp (List.all_eq_true.mp plain path listed) 0 zero
    exact absurd passed (by simp)
  exact ⟨bytes, manifest,
    readFrom_of_readable laidOut (of_decide_eq_true narrow) written rfl readable⟩

end Sample

end ModulePackaging
