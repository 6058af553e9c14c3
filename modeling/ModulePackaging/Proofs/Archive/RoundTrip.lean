import ModulePackaging.Proofs.Archive.Collecting

/-!
# Archives are read back

An archive that was laid out for a checked descriptor and signed is read back from its file as it
was, or refused as broken. It is refused in two cases only: when the path of a resource has a null
character, behind which the container drops the name, and when the name of the last member makes the
container look like a wide one.
-/

namespace ModulePackaging.Archive

/-! ## Archives that were laid out -/

/-- An archive laid out for a checked descriptor: everything in it is in its form, and the manifest
tells what is in it. The resources stand in the order in which they came. -/
structure IsLaidOut (archive : Archive) (d : Descriptor) (path : Text) (resources : List Resource)
    (hostApi : Option ApiEntry) : Prop where
  descriptor : archive.descriptor = d.draft
  checked : d.draft.check = .ok d
  signature : archive.signature.IsWellFormed
  modulePath : d.draft.modulePath = .ok path
  distinct : (Layout.manifestPath :: (partsOf path archive.artifact resources).map Part.name).Nodup
  sorted : archive.resources = Resource.sorted resources
  canonical : ∀ entry, hostApi = some entry → entry.IsCanonical
  recorded : archive.hostApi = hostApi.map ApiEntry.recorded
  manifest : (manifestJson d.toJson (listing path archive.artifact resources) archive.signature
    hostApi).storedBytes = .ok archive.manifest

/-- Assembling lays an archive out. -/
theorem isLaidOut_of_assemble {d : Descriptor} {artifact : Bytes} {block : SignatureBlock}
    {resources : List Resource} {hostApi : Option ApiEntry} {archive : Archive}
    (checked : d.draft.check = .ok d) (signature : block.IsWellFormed)
    (canonical : ∀ entry, hostApi = some entry → entry.IsCanonical)
    (h : assemble d.draft artifact block resources hostApi = .ok archive) :
    ∃ path normal, archive.IsLaidOut d path normal hostApi ∧
      resources.mapM Resource.normalize = .ok normal ∧
      archive.artifact = artifact ∧ archive.signature = block := by
  unfold assemble at h
  obtain ⟨_, h⟩ := guard_eq_ok.mp h
  obtain ⟨normal, normalized, h⟩ := bind_eq_ok.mp h
  obtain ⟨path, modulePath, h⟩ := bind_eq_ok.mp h
  obtain ⟨_, laid, h⟩ := bind_eq_ok.mp h
  obtain ⟨json, object, h⟩ := bind_eq_ok.mp h
  rw [Descriptor.draft_toJson] at object
  obtain rfl := Except.ok.inj object
  simp only at h
  obtain ⟨bytes, stored, h⟩ := bind_eq_ok.mp h
  obtain rfl := Except.ok.inj h
  refine ⟨path, normal, ⟨rfl, checked, signature, modulePath, ?_, rfl, canonical, rfl, stored⟩,
    mapError_eq_ok.mp normalized, rfl, rfl⟩
  rw [names_partsOf]
  exact nodup_of_checkLayout (mapError_eq_ok.mp laid)

/-! ## Without repetition -/

/-- Names without repetition are different. -/
theorem hasRepetition_eq_false {names : List Text} : hasRepetition names = false ↔ names.Nodup := by
  induction names with
  | nil => simp [hasRepetition]
  | cons name rest ih => simp [hasRepetition, ih]

/-! ## The members of the container -/

/-- An object with a member does not count as absent. -/
theorem presentOr_obj {members : Members} (some : members ≠ []) :
    presentOr (.obj members) = .obj members := by
  have truthy : (Json.obj members).isTruthy = true := by
    show (!members.isEmpty) = true
    rw [List.isEmpty_eq_false_iff.mpr some]
    rfl
  rw [presentOr, if_pos truthy]

namespace IsLaidOut

variable {archive : Archive} {d : Descriptor} {path : Text} {resources : List Resource}
  {hostApi : Option ApiEntry}

/-- The members that hold the parts of an archive, in the order of their names. -/
def memberList (archive : Archive) (path : Text) : List Zip.Member :=
  sortedBy (fun a b => decide (a.name ≤ b.name))
    ((partsOf path archive.artifact archive.resources).map Part.member)

/-- All members of the container of an archive. -/
def packed (archive : Archive) (path : Text) : List Zip.Member :=
  ⟨Layout.manifestPath, archive.manifest⟩ :: memberList archive path

theorem members_eq (h : archive.IsLaidOut d path resources hostApi) :
    archive.members = .ok (memberList archive path) := by
  unfold members Archive.modulePath
  rw [h.descriptor, h.modulePath]
  unfold memberList partsOf
  rw [List.map_cons, List.map_map]
  rfl

/-- The members but the manifest hold the parts. -/
theorem memberList_perm (h : archive.IsLaidOut d path resources hostApi) :
    (memberList archive path).Perm
      ((partsOf path archive.artifact resources).map Part.member) := by
  refine (sortedBy_perm _ _).trans (List.Perm.map _ ?_)
  unfold partsOf
  refine (List.Perm.map _ ?_).cons _
  rw [h.sorted]
  exact sortedBy_perm _ _

/-- A member of the container is the manifest or holds a part. -/
theorem mem_packed (h : archive.IsLaidOut d path resources hostApi) {m : Zip.Member} :
    m ∈ packed archive path ↔ m = ⟨Layout.manifestPath, archive.manifest⟩ ∨
      ∃ p ∈ partsOf path archive.artifact resources, p.member = m := by
  rw [packed, List.mem_cons, h.memberList_perm.mem_iff, List.mem_map]

/-- A part is the module or at a path of a resource. -/
theorem part_cases {p : Part} {artifact : Bytes} (member : p ∈ partsOf path artifact resources) :
    p = .module path artifact ∨ ∃ r ∈ resources, p = .resource r := by
  rcases List.mem_cons.mp member with rfl | member
  · exact .inl rfl
  · obtain ⟨r, inside, rfl⟩ := List.mem_map.mp member
    exact .inr ⟨r, inside, rfl⟩

theorem part_inside {p : Part} {artifact : Bytes} (member : p ∈ partsOf path artifact resources) :
    p.name = path ∨ p.name.startsWith Layout.resourcesStart = true := by
  rcases part_cases member with rfl | ⟨r, _, rfl⟩
  · exact .inl rfl
  · exact .inr (Layout.startsWith_resourcePath r.path)

theorem isChecked (h : archive.IsLaidOut d path resources hostApi) : d.IsChecked :=
  (Draft.check_eq_ok h.checked).2

/-- The name of each member has some bytes. -/
theorem named (h : archive.IsLaidOut d path resources hostApi) :
    ∀ m ∈ packed archive path, 4 ≤ (Zip.nameBytes m.name).length := by
  intro m member
  rcases h.mem_packed.mp member with rfl | ⟨p, inside, rfl⟩
  · show 4 ≤ (Zip.nameBytes Layout.manifestPath).length
    decide
  · rcases part_cases inside with rfl | ⟨r, _, rfl⟩
    · obtain ⟨plain, _, long⟩ := Draft.modulePath_draft h.isChecked h.modulePath
      exact Nat.le_trans long (Zip.length_le_nameBytes plain)
    · show 4 ≤ (Zip.nameBytes (Layout.resourcesStart ++ r.path)).length
      have plain : Layout.resourcesStart.all (fun c => c.val != 0) = true := by decide
      have start : Zip.storedName (Layout.resourcesStart ++ r.path) =
          Layout.resourcesStart ++ Zip.storedName r.path := by
        unfold Zip.storedName
        rw [List.takeWhile_append_of_pos (List.all_eq_true.mp plain)]
      rw [Zip.nameBytes, start]
      refine Nat.le_trans ?_ (Utf8.length_le_encoded _)
      rw [List.length_append]
      have : Layout.resourcesStart.length = 10 := rfl
      omega

/-- Each member fits into its records. -/
theorem storable (h : archive.IsLaidOut d path resources hostApi)
    (narrow : Zip.IsNarrow (packed archive path))
    (short : (packed archive path).any Zip.Member.isLongNamed = false) :
    ∀ m ∈ packed archive path, m.IsStorable := by
  obtain ⟨_, _, paths⟩ := short_of_stored h.manifest
  have small : ∀ (ms : List Zip.Member), ∀ m ∈ ms,
      m.content.length ≤ (Zip.contents ms).length := by
    intro ms m member
    obtain ⟨front, back, rfl⟩ := List.append_of_mem member
    rw [Zip.contents_append, List.length_append]
    have total : (Zip.contents (m :: back)).length =
        (Zip.localRecord m).length + (Zip.contents back).length := List.length_append
    rw [total, Zip.length_localRecord]
    omega
  intro m member
  refine ⟨Zip.isEncodable_storedName ?_, ?_, ?_⟩
  · rcases h.mem_packed.mp member with rfl | ⟨p, inside, rfl⟩
    · exact Text.isEncodable_ofString _
    · have listed : p.listed ∈ listing path archive.artifact resources := by
        rw [listing_eq]
        exact List.mem_map_of_mem inside
      exact paths p.listed listed
  · have each := List.any_eq_false.mp short m member
    simpa [Zip.Member.isLongNamed] using each
  · have bound := small _ m member
    have limit := narrow.contents
    rw [Zip.wideMark]
    omega

/-! ## Reading the manifest -/

/-- What the reader does with a container whose manifest is that of an archive: it collects the
parts and checks that there are no other members. -/
theorem ofContainer_eq (h : archive.IsLaidOut d path resources hostApi) {container : Zip.Container}
    {place : Text} (found : manifestOf container place = .ok archive.manifest) :
    ofContainer container place = (do
      let collected ← collect container path .nothing
        ((inNameOrder (partsOf path archive.artifact resources)).map
          fun p => p.listed.toJson.inOrder)
      let unlisted := container.names.filter fun name =>
        name ∉ collected.listed && name != Layout.manifestPath
      if !unlisted.isEmpty then refuse (.unlisted (Text.sorted unlisted) place)
      else match collected.artifact with
        | none => refuse (.noModule path)
        | some artifact =>
          return ⟨d.draft, artifact, archive.signature, Resource.sorted collected.resources,
            hostApi.map ApiEntry.recorded, archive.manifest⟩) := by
  have members := manifestMembers_of_stored h.manifest
  have descriptor : presentOr d.toJson.inOrder = d.toJson.inOrder := by
    rw [Descriptor.toJson_inOrder]
    rfl
  have signature : presentOr archive.signature.toJson.inOrder =
      archive.signature.toJson.inOrder := by
    apply presentOr_obj
    apply List.ne_nil_of_mem
    rw [Json.Style.mem_inKeyOrder]
    exact List.mem_cons_self
  have readApi : recordedApi (hostApiJson hostApi).inOrder =
      .ok (hostApi.map ApiEntry.recorded) := by
    have canonical := h.canonical
    cases hostApi with
    | none => rfl
    | some entry => exact recordedApi_inOrder (canonical entry rfl)
  -- With every field of the manifest read back, what is left to do is to collect the parts.
  apply Eq.trans
  · unfold ofContainer
    simp only [found, members, valueAt_descriptor, valueAt_signature, valueAt_hostApi, descriptor,
      signature, Descriptor.ofJson_inOrder h.checked, SignatureBlock.ofJson_inOrder h.signature,
      readApi, listingOf, valueAt_listing, h.modulePath, mapError_ok, bind, Except.bind]
    rfl
  · rfl

/-! ## Reading the parts -/

theorem names_packed (archive : Archive) (path : Text) :
    (Zip.opened (packed archive path)).names =
      Layout.manifestPath :: (memberList archive path).map fun m => Zip.storedName m.name := by
  rw [Zip.Container.names_opened, packed, List.map_cons]
  congr 1

/-- Parts are found by their names, if these are stored in full. -/
theorem read?_part (h : archive.IsLaidOut d path resources hostApi)
    (storable : ∀ m ∈ packed archive path, m.IsStorable)
    (distinct : (Zip.opened (packed archive path)).names.Nodup)
    {p : Part} (member : p ∈ partsOf path archive.artifact resources) (plain : 0 ∉ p.name) :
    (Zip.opened (packed archive path)).read? p.name = some (.ok p.content) := by
  have inside : p.member ∈ packed archive path := h.mem_packed.mpr (.inr ⟨p, member, rfl⟩)
  rw [Zip.Container.names_opened] at distinct
  have found := Zip.Container.read?_opened storable distinct inside
  rwa [show Zip.storedName p.member.name = p.name from
    Zip.storedName_eq_self_iff.mpr plain] at found

/-- No member is found by a name with a null character. -/
theorem read?_null {name : Text} (null : 0 ∈ name) :
    (Zip.opened (packed archive path)).read? name = none := by
  apply Zip.Container.read?_eq_none
  rw [Zip.Container.names_opened]
  intro member
  obtain ⟨m, _, same⟩ := List.mem_map.mp member
  have whole : Zip.storedName name = name := by rw [← same, Zip.storedName_storedName]
  exact Zip.storedName_eq_self_iff.mp whole null

/-- The manifest is read, if no name comes twice. -/
theorem manifestOf_packed (h : archive.IsLaidOut d path resources hostApi)
    (storable : ∀ m ∈ packed archive path, m.IsStorable)
    (distinct : (Zip.opened (packed archive path)).names.Nodup) (place : Text) :
    manifestOf (Zip.opened (packed archive path)) place = .ok archive.manifest := by
  have inside : (⟨Layout.manifestPath, archive.manifest⟩ : Zip.Member) ∈ packed archive path :=
    h.mem_packed.mpr (.inl rfl)
  have names := distinct
  rw [Zip.Container.names_opened] at names
  have found := Zip.Container.read?_opened storable names inside
  have whole : Zip.storedName Layout.manifestPath = Layout.manifestPath := by decide
  simp only [whole] at found
  unfold manifestOf
  rw [if_neg (by simpa using hasRepetition_eq_false.mpr distinct), found]
  rfl

/-! ## Reading the archive -/

/-- An archive whose paths have no null characters is read from its container as it was. -/
theorem ofContainer_of_plain (h : archive.IsLaidOut d path resources hostApi)
    (storable : ∀ m ∈ packed archive path, m.IsStorable)
    (plain : ∀ p ∈ partsOf path archive.artifact resources, 0 ∉ p.name) (place : Text) :
    ofContainer (Zip.opened (packed archive path)) place = .ok archive := by
  have stored : (memberList archive path).map (fun m => Zip.storedName m.name) =
      (memberList archive path).map Zip.Member.name := by
    apply List.map_congr_left
    intro m member
    obtain ⟨p, inside, rfl⟩ := List.mem_map.mp (h.memberList_perm.mem_iff.mp member)
    exact Zip.storedName_eq_self_iff.mpr (plain p inside)
  have names : ((memberList archive path).map Zip.Member.name).Perm
      ((partsOf path archive.artifact resources).map Part.name) := by
    have same := h.memberList_perm.map Zip.Member.name
    rwa [List.map_map] at same
  have distinct : (Zip.opened (packed archive path)).names.Nodup := by
    rw [names_packed, stored, (names.cons Layout.manifestPath).nodup_iff]
    exact h.distinct
  obtain ⟨_, other, _⟩ := Draft.modulePath_draft h.isChecked h.modulePath
  obtain ⟨listed, artifact, kept⟩ := collected_partsOf (List.nodup_cons.mp h.distinct).2 other
  have collected : collect (Zip.opened (packed archive path)) path .nothing
      ((inNameOrder (partsOf path archive.artifact resources)).map
        fun p => p.listed.toJson.inOrder) =
      .ok (Collected.nothing.after path (inNameOrder (partsOf path archive.artifact resources))) :=
    collect_listed
      (fun p member => h.read?_part storable distinct (mem_sortedBy.mp member)
        (plain p (mem_sortedBy.mp member)))
      (fun p member => part_inside (mem_sortedBy.mp member)) .nothing
  rw [h.ofContainer_eq (h.manifestOf_packed storable distinct place), collected]
  generalize Collected.nothing.after path (inNameOrder (partsOf path archive.artifact resources)) =
    c at listed artifact kept
  -- Every member but the manifest is a part, and all parts are listed.
  have unlisted : ((Zip.opened (packed archive path)).names.filter fun name =>
      name ∉ c.listed && name != Layout.manifestPath) = [] := by
    rw [List.filter_eq_nil_iff, names_packed, stored]
    intro name member
    rcases List.mem_cons.mp member with rfl | member
    · simp
    · rw [names.mem_iff, names_partsOf, ← listed.mem_iff] at member
      simp [member]
  show (if (!List.isEmpty _) = true then _ else _) = _
  rw [unlisted]
  simp only [artifact, kept]
  show Except.ok (⟨d.draft, _, _, _, _, _⟩ : Archive) = _
  rw [← h.descriptor, ← h.sorted, ← h.recorded]

/-- An archive with a null character in a path is refused as broken. -/
theorem ofContainer_of_null (h : archive.IsLaidOut d path resources hostApi)
    (storable : ∀ m ∈ packed archive path, m.IsStorable)
    (null : ∃ p ∈ partsOf path archive.artifact resources, 0 ∈ p.name) (place : Text) :
    ∃ problem, ofContainer (Zip.opened (packed archive path)) place =
      .error (.problem problem) ∧ problem.kind = .integrity := by
  by_cases distinct : (Zip.opened (packed archive path)).names.Nodup
  · have found : ∀ p ∈ inNameOrder (partsOf path archive.artifact resources),
        (Zip.opened (packed archive path)).read? p.name = some (.ok p.content) ∨
          (Zip.opened (packed archive path)).read? p.name = none := by
      intro p member
      by_cases null : 0 ∈ p.name
      · exact .inr (read?_null null)
      · exact .inl (h.read?_part storable distinct (mem_sortedBy.mp member) null)
    have absent : ∃ p ∈ inNameOrder (partsOf path archive.artifact resources),
        (Zip.opened (packed archive path)).read? p.name = none := by
      obtain ⟨p, member, null⟩ := null
      exact ⟨p, mem_sortedBy.mpr member, read?_null null⟩
    obtain ⟨name, missing⟩ := collect_missing found
      (fun p member => part_inside (mem_sortedBy.mp member)) absent .nothing
    rw [h.ofContainer_eq (h.manifestOf_packed storable distinct place), missing]
    exact ⟨(ReadError.memberMissing name).toProblem, rfl, rfl⟩
  · have repeated : hasRepetition (Zip.opened (packed archive path)).names = true := by
      rw [← Bool.not_eq_false, hasRepetition_eq_false]
      exact distinct
    refine ⟨(ReadError.duplicateMembers place).toProblem, ?_, rfl⟩
    unfold ofContainer manifestOf
    rw [if_pos repeated]
    rfl

end IsLaidOut

/-! ## Reading the file -/

/-- An archive that is written without the wide forms of containers. -/
def IsNarrow (archive : Archive) : Prop :=
  ∀ members, archive.members = .ok members →
    Zip.IsNarrow (⟨Layout.manifestPath, archive.manifest⟩ :: members)

instance (archive : Archive) : Decidable archive.IsNarrow :=
  match h : archive.members with
  | .ok members => decidable_of_iff (Zip.IsNarrow (⟨Layout.manifestPath, archive.manifest⟩ :: members))
      ⟨fun narrow _ same => Except.ok.inj (h.symm.trans same) ▸ narrow, fun narrow => narrow _ h⟩
  | .error _ => .isTrue fun _ same => absurd (h.symm.trans same) (by simp)

/-- An archive that its file gives back: no path has a null character, and the end of the file does
not look like that of a wide container. -/
structure IsReadable (archive : Archive) (bytes : Bytes) : Prop where
  paths : ∀ r ∈ archive.resources, 0 ∉ r.path
  narrow : Zip.seemsWide bytes = false

section Written

variable {archive : Archive} {d : Descriptor} {path : Text} {resources : List Resource}
  {hostApi : Option ApiEntry} {files : Files.Tree} {out : Path} {bytes : Bytes}

/-- The bytes of an archive are those of a container, none of whose names is too long. -/
theorem toBytes_eq_ok (h : archive.IsLaidOut d path resources hostApi)
    (written : archive.toBytes = .ok bytes) :
    bytes = Zip.write (IsLaidOut.packed archive path) ∧
      (IsLaidOut.packed archive path).any Zip.Member.isLongNamed = false := by
  unfold toBytes at written
  obtain ⟨members, laid, written⟩ := bind_eq_ok.mp written
  rw [h.members_eq] at laid
  obtain rfl := Except.ok.inj laid
  obtain ⟨short, done⟩ := guard_eq_ok.mp written
  exact ⟨(Except.ok.inj done).symm, Bool.eq_false_iff.mpr short⟩

/-- What reading the file of an archive gives. -/
theorem readFrom_eq (h : archive.IsLaidOut d path resources hostApi) (narrow : archive.IsNarrow)
    (written : archive.toBytes = .ok bytes) (stored : files.read out = .ok bytes) :
    readFrom files out =
      if Zip.seemsWide bytes then
        refuse (.notArchive (Fault.container .severalDisks).message out.toText)
      else ofContainer (Zip.opened (IsLaidOut.packed archive path)) out.toText := by
  obtain ⟨rfl, short⟩ := toBytes_eq_ok h written
  have limits : Zip.IsNarrow (IsLaidOut.packed archive path) := narrow _ h.members_eq
  unfold readFrom containerIn
  simp only [stored, mapError_ok, bind, Except.bind]
  rw [Zip.openContainer_write limits (List.cons_ne_nil _ _) h.named
    (h.storable limits short)]
  have refused : saysNoContainer (.container .severalDisks) = true := by decide
  by_cases wide : Zip.seemsWide (Zip.write (IsLaidOut.packed archive path)) = true
  · simp only [wide, if_true, mapError_error, refused]
    rfl
  · simp only [wide, if_false, Bool.false_eq_true, mapError_ok]

/-- A readable archive is read back from its file as it was. -/
theorem readFrom_of_readable (h : archive.IsLaidOut d path resources hostApi)
    (narrow : archive.IsNarrow) (written : archive.toBytes = .ok bytes)
    (stored : files.read out = .ok bytes) (readable : archive.IsReadable bytes) :
    readFrom files out = .ok archive := by
  obtain ⟨same, short⟩ := toBytes_eq_ok h written
  rw [readFrom_eq h narrow written stored, if_neg (by simp [readable.narrow])]
  apply h.ofContainer_of_plain (h.storable (narrow _ h.members_eq) short)
  intro p member
  rcases IsLaidOut.part_cases member with rfl | ⟨r, inside, rfl⟩
  · exact (Draft.modulePath_draft h.isChecked h.modulePath).1
  · have plain := readable.paths r (by rw [h.sorted]; exact mem_sortedBy.mpr inside)
    show 0 ∉ Layout.resourcesStart ++ r.path
    rw [List.mem_append, not_or]
    exact ⟨by decide, plain⟩

/-- An archive that is not readable is refused as broken. -/
theorem readFrom_of_not_readable (h : archive.IsLaidOut d path resources hostApi)
    (narrow : archive.IsNarrow) (written : archive.toBytes = .ok bytes)
    (stored : files.read out = .ok bytes) (unreadable : ¬ archive.IsReadable bytes) :
    ∃ problem, readFrom files out = .error (.problem problem) ∧ problem.kind = .integrity := by
  obtain ⟨same, short⟩ := toBytes_eq_ok h written
  rw [readFrom_eq h narrow written stored]
  split
  · exact ⟨_, rfl, rfl⟩
  · rename_i other
    apply h.ofContainer_of_null (h.storable (narrow _ h.members_eq) short)
    have null : ¬ ∀ r ∈ archive.resources, 0 ∉ r.path := fun paths =>
      unreadable ⟨paths, by simpa using other⟩
    push Not at null
    obtain ⟨r, member, zero⟩ := null
    rw [h.sorted] at member
    refine ⟨.resource r, List.mem_cons_of_mem _ (List.mem_map_of_mem (mem_sortedBy.mp member)), ?_⟩
    exact List.mem_append_right _ zero

end Written

end ModulePackaging.Archive
