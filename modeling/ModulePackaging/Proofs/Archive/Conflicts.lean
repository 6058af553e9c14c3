import ModulePackaging.Proofs.Archive.Members
import ModulePackaging.Proofs.Json.Nesting
import ModulePackaging.Proofs.Signing.SignedBytes

/-!
# Which layouts are accepted

The check of a layout goes through the paths twice, once with the folded forms so far at hand and
once for the directories above each path, and it is made for the paths of the resources alone and
for all members. What it comes to is said without either: a path is refused, or two normal forms are
equal when folded, or one of them, folded, is the other one up to a slash (`Conflicts`). The
manifest and the module never have a part in a conflict, whatever the paths of the resources are.

Main statement (`assemble_iff_free`): a signed descriptor, a module and resources are refused for
their layout exactly if there is a conflict, and assembled otherwise. The members of the archive are
then free of conflicts, and the manifest lists them one by one in their order.
-/

namespace ModulePackaging

namespace Layout

variable {path directory : Text} {paths normals : List Text}

/-! ## Conflicts -/

/-- What stands against paths being together: one is refused, two of the normal forms are equal when
folded, or one, folded, leads through another one as a directory. -/
inductive Conflicts (paths : List Text) : Prop
  | refused {path : Text} {e : LayoutConflict} (member : path ∈ paths)
      (refusal : normalize path = .error e)
  | same {normals : List Text} (normalized : paths.mapM normalize = .ok normals)
      (repeated : ¬ (normals.map Text.caseFold).Nodup)
  | directory {normals : List Text} {file path rest : Text}
      (normalized : paths.mapM normalize = .ok normals) (first : file ∈ normals)
      (second : path ∈ normals) (through : path.caseFold = file.caseFold ++ Path.slash :: rest)

/-- The directories above a path are what stands in front of its slashes. -/
theorem mem_directoriesOf_iff_append :
    directory ∈ directoriesOf path ↔ ∃ rest, path = directory ++ Path.slash :: rest := by
  rw [mem_directoriesOf]
  constructor
  · rintro ⟨⟨more, names⟩, other⟩
    have some : more ≠ [] := by
      rintro rfl
      rw [List.append_nil] at names
      have whole := Text.joined_splitOn Path.slash path
      rw [← names, Text.joined_splitOn] at whole
      exact other whole
    have slashes : ∀ name ∈ more, ∀ c ∈ name, c ≠ Path.slash := by
      rintro name member c inside rfl
      have piece : name ∈ Text.splitOn Path.slash path := by
        rw [← names]
        exact List.mem_append_right _ member
      exact Text.notMem_of_mem_splitOn piece inside
    refine ⟨Text.joined [Path.slash] more, ?_⟩
    rw [← Text.joined_splitOn Path.slash path, ← names,
      ← Text.joined_splitOn Path.slash (directory ++ _), Text.splitOn_append_cons,
      Text.splitOn_joined Path.slash more some slashes]
  · rintro ⟨rest, rfl⟩
    refine ⟨?_, by simp⟩
    rw [Text.splitOn_append_cons]
    exact List.prefix_append _ _

theorem mapM_normalize_of_isPlain (plain : ∀ path ∈ normals, IsPlain path) :
    normals.mapM normalize = .ok normals := by
  have each : ∀ path ∈ normals, normalize path = pure (id path) := fun path member =>
    (plain path member).normalize_eq
  have all := mapM_eq_pure each
  rw [List.map_id] at all
  exact all

/-- Normal forms pass the check exactly if the paths are free of conflicts. -/
theorem check_eq_ok_iff_free (normalized : paths.mapM normalize = .ok normals) :
    check normals = .ok () ↔ ¬ Conflicts paths := by
  simp only [check_eq_ok, mem_directoriesOf_iff_append]
  constructor
  · rintro ⟨distinct, directories⟩ conflict
    cases conflict with
    | refused member refusal =>
        obtain ⟨normal, _, given⟩ := ok_of_mapM normalized _ member
        exact absurd (given.symm.trans refusal) (by simp)
    | same normalized' repeated =>
        obtain rfl := Except.ok.inj (normalized.symm.trans normalized')
        exact repeated distinct
    | directory normalized' first second through =>
        obtain rfl := Except.ok.inj (normalized.symm.trans normalized')
        exact directories _ second _ ⟨_, through⟩ (List.mem_map_of_mem first)
  · intro free
    constructor
    · by_contra repeated
      exact free (.same normalized repeated)
    · rintro path second _ ⟨rest, through⟩ file
      obtain ⟨file, first, rfl⟩ := List.mem_map.mp file
      exact free (.directory normalized first second through)

/-- The folded names of a resource start with the directory of the resources. -/
theorem foldedNames_resourcePath (path : Text) :
    foldedNames (resourcePath path) = Text.caseFold "resources" :: foldedNames path := by
  rw [foldedNames, splitOn_resourcePath]
  rfl

end Layout

/-! ## What a manifest is made of -/

theorem Descriptor.IsWritable.isPlain_toJson {d : Descriptor} (h : d.IsWritable) :
    d.toJson.IsPlain := by
  apply Json.IsPlain.obj (Descriptor.nodup_keys_toJson d.value)
  · simp only [List.forall_mem_map, Field.isEncodable_key, implies_true]
  · simp only [List.forall_mem_map, Field.all, List.forall_mem_cons, Descriptor.value,
      List.not_mem_nil, false_implies, implies_true, and_true]
    exact ⟨.str h.name, .int h.numericId, .str h.version,
      .str h.buildId, .str h.buildIdNamespace,
      .str d.confidentiality.isEncodable_name, .str h.hostTriple, .str h.docTitle,
      .str h.description⟩

theorem SignatureBlock.isPlain_toJson (block : SignatureBlock) : block.toJson.IsPlain := by
  have hex (bytes : Bytes) : (Hex.encode bytes).IsEncodable :=
    Text.isEncodable_of_ascii (Hex.ascii_of_mem_encode bytes)
  have base64 (bytes : Bytes) : (Base64.encode bytes).IsEncodable :=
    Text.isEncodable_of_ascii (Base64.ascii_of_mem_encode bytes)
  have name : block.algorithm.name.IsEncodable := by
    cases block.algorithm <;> exact Text.isEncodable_ofString _
  have ascii (s : String) : (Text.ofString s).IsEncodable := Text.isEncodable_ofString s
  apply Json.IsPlain.obj block.nodup_keys_members
  · simp only [SignatureBlock.members, List.forall_mem_cons, List.not_mem_nil, false_implies,
      implies_true, and_true, ascii]
  · simp only [SignatureBlock.members, List.forall_mem_cons, List.not_mem_nil, false_implies,
      implies_true, and_true]
    refine ⟨.str name, .str ?_, .str (base64 _), .str (base64 _), .str ?_⟩
    · exact Text.isEncodable_append.mpr ⟨ascii _, hex _⟩
    · show (block.algorithm.name ++ ":" ++ Base64.encode _ : Text).IsEncodable
      exact Text.isEncodable_append.mpr
        ⟨Text.isEncodable_append.mpr ⟨name, ascii _⟩, base64 _⟩

theorem Archive.Part.isPlain_toJson {p : Part}
    (short : Decimal.isLong p.content.length = false)
    (encodable : p.name.IsEncodable) : p.listed.toJson.IsPlain := by
  have ascii (s : String) : (Text.ofString s).IsEncodable := Text.isEncodable_ofString s
  apply Json.IsPlain.obj p.listed.nodup_keys_members
  · simp only [ListedMember.members, List.forall_mem_cons, List.not_mem_nil, false_implies,
      implies_true, and_true, ascii]
  · simp only [ListedMember.members, List.forall_mem_cons, List.not_mem_nil, false_implies,
      implies_true, and_true]
    refine ⟨.str encodable, .int short, .str ?_, .str ?_⟩
    · exact Text.isEncodable_append.mpr
        ⟨ascii _, Text.isEncodable_of_ascii (Hex.ascii_of_mem_encode _)⟩
    · split <;> exact ascii _

/-! ## The module and the manifest -/

namespace Archive

variable {d : Descriptor} {module : Text} {artifact : Bytes} {resources normals : List Resource}

/-- The folded names of a module start with its host, which neither the manifest nor the directory
of the resources is named like. -/
theorem foldedNames_modulePath (checked : d.IsChecked) (place : d.draft.modulePath = .ok module) :
    ∃ host rest, Layout.foldedNames module = host :: rest ∧
      host ≠ Text.caseFold "manifest.json" ∧ host ≠ Text.caseFold "resources" := by
  obtain ⟨host, _, names, _⟩ := Draft.splitOn_modulePath checked place
  refine ⟨Text.caseFold host.key, _, congrArg (List.map Text.caseFold) names, ?_⟩
  cases host <;> decide

/-- The module is named like neither the manifest nor a resource. -/
theorem modulePath_ne (checked : d.IsChecked) (place : d.draft.modulePath = .ok module) :
    module ≠ Layout.manifestPath ∧ ∀ path, Layout.resourcePath path ≠ module := by
  obtain ⟨host, rest, names, apart, apart'⟩ := foldedNames_modulePath checked place
  constructor
  · rintro rfl
    exact apart (List.cons.inj names).1.symm
  · rintro path rfl
    exact apart' (List.cons.inj (names.symm.trans (Layout.foldedNames_resourcePath path))).1

/-- Resources at different paths have names that differ from one another and from the others. -/
theorem nodup_places (checked : d.IsChecked) (place : d.draft.modulePath = .ok module)
    (distinct : (normals.map Resource.path).Nodup) :
    (Layout.manifestPath :: module :: normals.map fun r => Layout.resourcePath r.path).Nodup := by
  obtain ⟨notManifest, notResource⟩ := modulePath_ne checked place
  have places : (normals.map fun r => Layout.resourcePath r.path).Nodup := by
    have mapped := distinct.map Layout.resourcePath_injective
    rw [List.map_map] at mapped
    exact mapped
  refine List.nodup_cons.mpr ⟨?_, List.nodup_cons.mpr ⟨?_, places⟩⟩
  · rw [List.mem_cons, List.mem_map]
    rintro (same | ⟨r, _, same⟩)
    · exact notManifest same.symm
    · exact Layout.resourcePath_ne_manifestPath r.path same
  · rw [List.mem_map]
    rintro ⟨r, _, same⟩
    exact notResource r.path same

/-- Whether a module and resources at normal paths can be together depends on the resources alone:
each name of the manifest, the module and a resource starts in its own way. -/
theorem checkLayout_eq_ok_iff (checked : d.IsChecked) (place : d.draft.modulePath = .ok module) :
    checkLayout module normals = .ok () ↔ Layout.check (normals.map Resource.path) = .ok () := by
  obtain ⟨host, rest, module', hostApart, hostApart'⟩ := foldedNames_modulePath checked place
  have manifest : Layout.foldedNames Layout.manifestPath = [Text.caseFold "manifest.json"] := rfl
  have resource := Layout.foldedNames_resourcePath
  have startsApart : Text.caseFold "manifest.json" ≠ Text.caseFold "resources" := by decide
  unfold checkLayout
  rw [bind_eq_ok]
  constructor
  · rintro ⟨⟨⟩, alone, _⟩
    exact alone
  · intro alone
    refine ⟨(), alone, ?_⟩
    obtain ⟨distinct, apart⟩ := Layout.check_eq_ok_iff_apart.mp alone
    refine Layout.check_eq_ok_iff_apart.mpr ⟨nodup_places checked place distinct, ?_⟩
    -- Names of different kinds start differently; two resources are apart by the first check.
    simp only [List.mem_cons, List.mem_map]
    rintro _ (rfl | rfl | ⟨r, inside, rfl⟩) _ (rfl | rfl | ⟨q, also, rfl⟩) differs starts
    · exact differs rfl
    · rw [manifest, module', List.cons_prefix_cons] at starts
      exact hostApart starts.1
    · rw [manifest, resource, List.cons_prefix_cons] at starts
      exact startsApart starts.1.symm
    · rw [manifest, module', List.cons_prefix_cons] at starts
      exact hostApart starts.1.symm
    · exact differs rfl
    · rw [module', resource, List.cons_prefix_cons] at starts
      exact hostApart' starts.1.symm
    · rw [manifest, resource, List.cons_prefix_cons] at starts
      exact startsApart starts.1
    · rw [module', resource, List.cons_prefix_cons] at starts
      exact hostApart' starts.1
    · rw [resource, resource, List.cons_prefix_cons] at starts
      have others : q.path ≠ r.path := fun same => differs (congrArg Layout.resourcePath same)
      exact apart r.path (List.mem_map_of_mem inside) q.path (List.mem_map_of_mem also) others
        starts.2

/-- A manifest can be stored if what is in it can. -/
theorem isPlain_manifestJson {hostApi : Option ApiEntry} (block : SignatureBlock)
    (writable : d.IsWritable) (api : ∀ entry, hostApi = some entry → entry.toJson.IsPlain)
    (sizes : ∀ p ∈ partsOf module artifact normals, Decimal.isLong p.content.length = false)
    (encodable : ∀ p ∈ partsOf module artifact normals, p.name.IsEncodable) :
    (manifestJson d.toJson (listing module artifact normals) block hostApi).IsPlain := by
  have ascii (s : String) : (Text.ofString s).IsEncodable := Text.isEncodable_ofString s
  rw [manifestJson_eq]
  apply Json.IsPlain.obj nodup_keys_manifestFields
  · simp only [manifestFields, List.forall_mem_cons, List.not_mem_nil, false_implies,
      implies_true, and_true, ascii]
  · simp only [manifestFields, List.forall_mem_cons, List.not_mem_nil, false_implies,
      implies_true, and_true]
    refine ⟨.str (ascii _), .int (by decide), writable.isPlain_toJson, ?_, .arr ?_,
      block.isPlain_toJson⟩
    · cases hostApi with
      | none => exact .null
      | some entry => exact api entry rfl
    · rw [inPathOrder_listing, List.map_map, List.forall_mem_map]
      intro p member
      have inside := mem_sortedBy.mp member
      exact Part.isPlain_toJson (sizes p inside) (encodable p inside)

/-! ## What is assembled -/

/-- The members of an archive have normal names that are free of conflicts, and the manifest lists
all but itself one by one in their order, the one at the place of the module as the module. -/
structure IsCatalogued (archive : Archive) (module : Text) (entries : List Zip.Member) : Prop where
  modulePath : archive.modulePath = .ok module
  members : archive.members = .ok entries
  normal : ∀ name ∈ Layout.manifestPath :: entries.map Zip.Member.name,
    Layout.normalize name = .ok name
  free : ¬ Layout.Conflicts (Layout.manifestPath :: entries.map Zip.Member.name)
  ascending : (entries.map Zip.Member.name).Pairwise (· < ·)
  listed : ∃ fields, manifestMembers archive.manifest = .ok fields ∧
    valueAt fields "resources" = .arr (entries.map fun m =>
      (ListedMember.of m.name m.content (m.name = module)).toJson.inOrder)

variable {archive : Archive} {block : SignatureBlock} {hostApi : Option ApiEntry}

/-- The entries of an archive hold its parts, in the order of their names. -/
theorem members_eq_parts (place : archive.modulePath = .ok module)
    (sorted : archive.resources = Resource.sorted normals)
    (distinct : ((partsOf module archive.artifact normals).map Part.name).Nodup) :
    archive.members =
      .ok ((inNameOrder (partsOf module archive.artifact normals)).map Part.member) := by
  have order : (partsOf module archive.artifact (Resource.sorted normals)).Perm
      (partsOf module archive.artifact normals) :=
    ((sortedBy_perm _ normals).map _).cons _
  have names : ((partsOf module archive.artifact (Resource.sorted normals)).map Part.name).Nodup :=
    (order.map Part.name).nodup_iff.mpr distinct
  have parts : inNameOrder (partsOf module archive.artifact (Resource.sorted normals)) =
      inNameOrder (partsOf module archive.artifact normals) :=
    sortedByKey_eq_of_perm Part.name order names
  have entries : (inNameOrder (partsOf module archive.artifact (Resource.sorted normals))).map
      Part.member = sortedBy (fun a b => decide (a.name ≤ b.name))
        ((partsOf module archive.artifact (Resource.sorted normals)).map Part.member) := by
    rw [sortedBy_map]
    rfl
  rw [← parts, entries, members, place, sorted, partsOf, List.map_cons, List.map_map]
  rfl

/-- The manifest, the module and resources with normal paths have normal names. -/
theorem isPlain_of_placed (checked : d.IsChecked) (place : d.draft.modulePath = .ok module)
    (plain : ∀ r ∈ normals, Layout.IsPlain r.path) :
    ∀ name ∈ Layout.manifestPath :: module :: normals.map fun r => Layout.resourcePath r.path,
      Layout.IsPlain name := by
  simp only [List.mem_cons, List.mem_map]
  rintro _ (rfl | rfl | ⟨r, inside, rfl⟩)
  · exact Layout.isPlain_manifestPath
  · exact (Draft.modulePath_isPlain checked place).1
  · exact (plain r inside).resourcePath

/-- An archive that was laid out in a layout that passes is catalogued. -/
theorem isCatalogued_of_laid (checked : d.IsChecked) (drafted : archive.descriptor = d.draft)
    (place : d.draft.modulePath = .ok module) (sorted : archive.resources = Resource.sorted normals)
    (plain : ∀ r ∈ normals, Layout.IsPlain r.path) (laid : checkLayout module normals = .ok ())
    (stored : (manifestJson d.toJson (listing module archive.artifact normals) block
      hostApi).storedBytes = .ok archive.manifest) :
    archive.IsCatalogued module
      ((inNameOrder (partsOf module archive.artifact normals)).map Part.member) := by
  have place' : archive.modulePath = .ok module := by rw [modulePath, drafted, place]
  have names : ((inNameOrder (partsOf module archive.artifact normals)).map Part.member).map
      Zip.Member.name = (inNameOrder (partsOf module archive.artifact normals)).map Part.name :=
    List.map_map
  have order : (Layout.manifestPath ::
      (inNameOrder (partsOf module archive.artifact normals)).map Part.name).Perm
      (Layout.manifestPath :: module :: normals.map fun r => Layout.resourcePath r.path) := by
    rw [← names_partsOf]
    exact ((sortedBy_perm _ _).map Part.name).cons _
  have different := nodup_of_checkLayout laid
  have distinct : ((partsOf module archive.artifact normals).map Part.name).Nodup := by
    rw [names_partsOf]
    exact (List.nodup_cons.mp different).2
  have normal : ∀ name ∈ Layout.manifestPath ::
      (inNameOrder (partsOf module archive.artifact normals)).map Part.name,
      Layout.IsPlain name := fun name member =>
    isPlain_of_placed checked place plain name (order.mem_iff.mp member)
  refine ⟨place', members_eq_parts place' sorted distinct, ?_, ?_, ?_, _,
    manifestMembers_of_stored stored, ?_⟩
  · rw [names]
    exact fun name member => (normal name member).normalize_eq
  · rw [names, ← Layout.check_eq_ok_iff_free (Layout.mapM_normalize_of_isPlain normal),
      Layout.check_eq_ok_of_perm order]
    obtain ⟨_, _, together⟩ := bind_eq_ok.mp laid
    exact together
  · rw [names]
    exact sortedByKey_ascending Part.name distinct
  · rw [valueAt_listing, List.map_map]
    congr 1
    apply List.map_congr_left
    intro p member
    -- A part is listed as the module exactly if it has the name of the module.
    rcases IsLaidOut.part_cases (mem_sortedBy.mp member) with rfl | ⟨r, inside, rfl⟩
    · simp [Part.module, Part.member, Part.listed]
    · have other : Layout.resourcePath r.path ≠ module := by
        rintro rfl
        exact (List.nodup_cons.mp (List.nodup_cons.mp different).2).1 (List.mem_map_of_mem inside)
      simp [Part.resource, Part.member, Part.listed, other]

/-! ## Assembling -/

/-- The paths of normalized resources are the normal forms of their paths. -/
theorem mapM_normalize_paths (h : resources.mapM Resource.normalize = .ok normals) :
    (resources.map Resource.path).mapM Layout.normalize = .ok (normals.map Resource.path) := by
  rw [mapM_eq_ok_iff, List.forall₂_map_left_iff, List.forall₂_map_right_iff]
  exact (mapM_eq_ok_iff.mp h).imp fun r normal one => (Resource.normalize_eq_ok.mp one).1

/-- Resources are normalized and laid out, or there is a conflict and one of the two fails. -/
theorem laid_or_conflicts (checked : d.IsChecked) (place : d.draft.modulePath = .ok module)
    (resources : List Resource) :
    (¬ Layout.Conflicts (resources.map Resource.path) ∧ ∃ normals,
      resources.mapM Resource.normalize = .ok normals ∧ checkLayout module normals = .ok ()) ∨
    (Layout.Conflicts (resources.map Resource.path) ∧ ∃ e,
      (resources.mapM Resource.normalize >>= checkLayout module) = .error e) := by
  cases normalized : resources.mapM Resource.normalize with
  | error e =>
      obtain ⟨r, member, refused⟩ := exists_of_mapM_error normalized
      have refusal : Layout.normalize r.path = .error e := by
        rcases bind_eq_error.mp refused with refusal | ⟨_, _, kept⟩
        · exact refusal
        · exact absurd kept (by simp [pure, Except.pure])
      exact .inr ⟨.refused (List.mem_map_of_mem member) refusal, e, rfl⟩
  | ok normals =>
      have free := Layout.check_eq_ok_iff_free (mapM_normalize_paths normalized)
      rw [← checkLayout_eq_ok_iff checked place] at free
      cases laid : checkLayout module normals with
      | ok u => exact .inl ⟨free.mp laid, normals, rfl, laid⟩
      | error e =>
          refine .inr ⟨?_, e, laid⟩
          by_contra none
          rw [free.mpr none] at laid
          exact absurd laid (by simp)

/-- Resources that are refused end assembling. -/
theorem assemble_of_refused {e : LayoutConflict} (filled : artifact ≠ [])
    (place : d.draft.modulePath = .ok module)
    (refused : (resources.mapM Resource.normalize >>= checkLayout module) = .error e) :
    assemble d.draft artifact block resources hostApi = .error (.problem e.toProblem) := by
  have notEmpty : artifact.isEmpty = false := List.isEmpty_eq_false_iff.mpr filled
  unfold assemble
  simp only [notEmpty, Bool.false_eq_true, if_false]
  rcases bind_eq_error.mp refused with early | ⟨normals, normalized, late⟩
  · rw [early]
    rfl
  · simp only [normalized, place, late, mapError_ok, mapError_error, bind, Except.bind]

/-- What becomes of resources that are laid out is up to whether the manifest can be stored. -/
theorem assemble_eq_of_laid (filled : artifact ≠ []) (place : d.draft.modulePath = .ok module)
    (normalized : resources.mapM Resource.normalize = .ok normals)
    (laid : checkLayout module normals = .ok ()) :
    assemble d.draft artifact block resources hostApi = (do
      let bytes ← (manifestJson d.toJson (listing module artifact normals) block
        hostApi).storedBytes
      return ⟨d.draft, artifact, block, Resource.sorted normals, hostApi.map ApiEntry.recorded,
        bytes⟩) := by
  have notEmpty : artifact.isEmpty = false := List.isEmpty_eq_false_iff.mpr filled
  unfold assemble
  simp only [notEmpty, normalized, place, laid, Descriptor.draft_toJson, mapError_ok, bind,
    Except.bind, Bool.false_eq_true, if_false]

/-- Resources that are laid out are put into an archive, if its manifest can be stored. -/
theorem assemble_of_laid {bytes : Bytes} (filled : artifact ≠ [])
    (place : d.draft.modulePath = .ok module)
    (normalized : resources.mapM Resource.normalize = .ok normals)
    (laid : checkLayout module normals = .ok ())
    (stored : (manifestJson d.toJson (listing module artifact normals) block hostApi).storedBytes =
      .ok bytes) :
    assemble d.draft artifact block resources hostApi = .ok ⟨d.draft, artifact, block,
      Resource.sorted normals, hostApi.map ApiEntry.recorded, bytes⟩ := by
  rw [assemble_eq_of_laid filled place normalized laid, stored]
  rfl

/-- The parts of an archive can be listed if their sizes and paths have a written form. -/
theorem part_writable (writable : d.IsWritable) (checked : d.IsChecked)
    (place : d.draft.modulePath = .ok module)
    (normalized : resources.mapM Resource.normalize = .ok normals)
    (encodable : ∀ r ∈ resources, r.path.IsEncodable)
    (short : Decimal.isLong artifact.length = false)
    (sizes : ∀ r ∈ resources, Decimal.isLong r.data.length = false) :
    ∀ p ∈ partsOf module artifact normals,
      Decimal.isLong p.content.length = false ∧ p.name.IsEncodable := by
  intro p member
  rcases IsLaidOut.part_cases member with rfl | ⟨r, inside, rfl⟩
  · obtain ⟨host, rfl, _⟩ := Draft.splitOn_modulePath checked place
    refine ⟨short, ?_⟩
    show (host.key ++ "/lib/" ++ (d.name ++ host.librarySuffix)).IsEncodable
    simp only [Text.isEncodable_append, writable.name, Text.isEncodable_ofString, true_and,
      and_true]
    cases host <;> exact ⟨Text.isEncodable_ofString _, Text.isEncodable_ofString _⟩
  · obtain ⟨source, member, normal⟩ := exists_of_mapM normalized r inside
    obtain ⟨path, data⟩ := Resource.normalize_eq_ok.mp normal
    refine ⟨by simpa [Part.resource, data] using sizes source member, ?_⟩
    exact Text.isEncodable_append.mpr ⟨Text.isEncodable_ofString _,
      Layout.isEncodable_of_normalize path (encodable source member)⟩

/-- A signed descriptor, a module that is not empty and resources with encodable paths are refused
for their layout exactly if the paths conflict. Otherwise they are assembled to an archive with the
module and each resource as its members, which is catalogued. The sizes, and what the archive says
of the host, must have a written form. -/
theorem assemble_iff_free {draft : Draft} {signedFor : Bytes} {handle : KeyHandle}
    (signed : Signing.sign signedFor draft handle = .ok (d, block)) (filled : artifact ≠ [])
    (encodable : ∀ r ∈ resources, r.path.IsEncodable)
    (short : Decimal.isLong artifact.length = false)
    (sizes : ∀ r ∈ resources, Decimal.isLong r.data.length = false)
    (api : ∀ entry, hostApi = some entry → entry.toJson.IsPlain) :
    ((∃ problem, assemble draft artifact block resources hostApi = .error (.problem problem) ∧
        problem.kind = .layoutConflict) ↔ Layout.Conflicts (resources.map Resource.path)) ∧
    (¬ Layout.Conflicts (resources.map Resource.path) → ∃ archive module normals entries,
      assemble draft artifact block resources hostApi = .ok archive ∧
      resources.mapM Resource.normalize = .ok normals ∧
      entries.Perm (⟨module, artifact⟩ ::
        normals.map fun r => ⟨Layout.resourcePath r.path, r.data⟩) ∧
      archive.IsCatalogued module entries) := by
  obtain ⟨_, _, _, _, rfl, check, message, _⟩ := Signing.sign_eq_ok signed
  obtain ⟨canonical, written, _⟩ := Signing.signedBytes_eq_ok.mp message
  have checked := (Draft.check_eq_ok check).2
  have writable : d.IsWritable := Descriptor.isWritable_iff.mpr ⟨canonical, written⟩
  obtain ⟨module, place⟩ := Draft.exists_modulePath checked
  rcases laid_or_conflicts checked place resources with
    ⟨free, normals, normalized, laid⟩ | ⟨conflicts, e, refused⟩
  · have parts := part_writable writable checked place normalized encodable short sizes
    have stored := (isPlain_manifestJson block writable api (fun p member => (parts p member).1)
      fun p member => (parts p member).2).storedBytes_eq
    have assembled := assemble_of_laid filled place normalized laid stored
    constructor
    · simp [assembled, free]
    · intro _
      refine ⟨_, module, normals, _, assembled, normalized, ?_, isCatalogued_of_laid checked rfl
        place rfl (normal_of_normalized normalized) laid stored⟩
      have order := (sortedBy_perm (fun a b => decide (a.name ≤ b.name))
        (partsOf module artifact normals)).map Part.member
      rw [partsOf, List.map_cons, List.map_map] at order
      exact order
  · have assembled : assemble d.draft artifact block resources hostApi = _ :=
      assemble_of_refused filled place refused
    exact ⟨iff_of_true ⟨_, assembled, rfl⟩ conflicts, fun free => absurd conflicts free⟩

end Archive

namespace Sample

open Archive

/-- A resource below a directory, and one whose path is that directory but for the case. -/
def clashing : List Resource := [⟨"a/b", [1]⟩, ⟨"A", [2]⟩]

/-- A resource below a directory, with the other sign between the names, and one next to it. -/
def apart : List Resource := [⟨"a\\b", [1]⟩, ⟨"ab", [2]⟩]

set_option maxRecDepth 100000 in
/-- Of a file and a directory of one name the layout is refused; other resources are assembled. -/
theorem assemble_iff_free_sample :
    ∃ d block, Signing.sign [0x4D] sample.draft (.key .zero) = .ok (d, block) ∧
      (∃ problem, assemble sample.draft [0x4D] block clashing none = .error (.problem problem) ∧
        problem.kind = .layoutConflict) ∧
      ∃ archive module entries, assemble sample.draft [0x4D] block apart none = .ok archive ∧
        archive.IsCatalogued module entries := by
  have run : passes (Signing.sign [0x4D] sample.draft (.key .zero)) (fun _ => true) = true := by
    decide +kernel
  obtain ⟨⟨d, block⟩, signed, _⟩ := exists_of_passes run
  have plain : ∀ resources ∈ [clashing, apart], ∀ r ∈ resources,
      r.path.IsEncodable ∧ Decimal.isLong r.data.length = false := by
    simp only [clashing, apart, List.forall_mem_cons, List.not_mem_nil, false_implies,
      implies_true, and_true]
    have ascii (s : String) : (Text.ofString s).IsEncodable := Text.isEncodable_ofString s
    exact ⟨⟨⟨ascii _, by decide⟩, ascii _, by decide⟩, ⟨ascii _, by decide⟩, ascii _, by decide⟩
  have refused : (∃ problem, assemble sample.draft [0x4D] block clashing none =
      .error (.problem problem) ∧ problem.kind = .layoutConflict) ↔
      Layout.Conflicts (clashing.map Resource.path) :=
    (assemble_iff_free signed (List.cons_ne_nil _ _)
      (fun r member => (plain clashing (by simp) r member).1) (by decide)
      (fun r member => (plain clashing (by simp) r member).2) (by simp)).1
  have assembled : ¬ Layout.Conflicts (apart.map Resource.path) →
      ∃ archive module normals entries, assemble sample.draft [0x4D] block apart none =
        .ok archive ∧ _ ∧ _ ∧ archive.IsCatalogued module entries :=
    (assemble_iff_free signed (List.cons_ne_nil _ _)
      (fun r member => (plain apart (by simp) r member).1) (by decide)
      (fun r member => (plain apart (by simp) r member).2) (by simp)).2
  have through : Text.caseFold "a/b" = Text.caseFold "A" ++ Path.slash :: Text.ofString "b" := by
    decide
  have folded : (clashing.map Resource.path).mapM Layout.normalize = .ok ["a/b", "A"] := by rfl
  have conflicts : Layout.Conflicts (clashing.map Resource.path) :=
    .directory folded (.tail _ (.head _)) (.head _) through
  have normal : (apart.map Resource.path).mapM Layout.normalize = .ok ["a/b", "ab"] := by rfl
  have free := (Layout.check_eq_ok_iff_free normal).mp (by rfl)
  obtain ⟨archive, module, _, entries, given, _, _, catalogued⟩ := assembled free
  exact ⟨d, block, signed, refused.mpr conflicts, archive, module, entries, given, catalogued⟩

end Sample

end ModulePackaging
