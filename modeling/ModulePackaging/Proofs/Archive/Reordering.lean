import ModulePackaging.Proofs.Archive.Conflicts
import ModulePackaging.Proofs.Archive.FreshPaths
import ModulePackaging.Proofs.Archive.ReadBack

/-!
# Archives do not depend on the order of resources

Checking a layout stops at a path that depends on the order in which the paths come, so that the
refusal of one order may name other paths than that of another. That there is one does not depend on
it: what conflicts is a matter of the paths together. Where there is none, no two normal forms are
equal, and the three collections that are sorted by them come out the same.

Main statement (`assemble_reordered`): two orders of the same resources are both refused for their
layout, or are assembled to one archive, which is the same file wherever it is new.
-/

namespace ModulePackaging

namespace Layout

/-- Whether there is a conflict does not depend on the order of the paths. -/
theorem Conflicts.of_perm {paths others : List Text} (same : paths.Perm others)
    (h : Conflicts paths) : Conflicts others := by
  cases h with
  | refused member refusal => exact .refused (same.mem_iff.mp member) refusal
  | same normalized repeated =>
      obtain ⟨normals, normalized', order⟩ := mapM_of_perm same normalized
      -- The normal forms of the other order are the same ones in that order.
      refine .same normalized' fun distinct => repeated ?_
      exact (order.map Text.caseFold).nodup_iff.mpr distinct
  | directory normalized first second through =>
      obtain ⟨normals, normalized', order⟩ := mapM_of_perm same normalized
      exact .directory normalized' (order.mem_iff.mp first) (order.mem_iff.mp second) through

theorem conflicts_perm {paths others : List Text} (same : paths.Perm others) :
    Conflicts paths ↔ Conflicts others := ⟨.of_perm same, .of_perm same.symm⟩

/-- One path that is normal has nothing to be in conflict with. -/
theorem not_conflicts_of_plain {path : Text} (plain : IsPlain path) : ¬ Conflicts [path] := by
  have alone : check [path] = .ok () := by
    rw [check_eq_ok_iff_apart]
    simp
  have normalized : [path].mapM normalize = .ok [path] :=
    mapM_normalize_of_isPlain (List.forall_mem_singleton.mpr plain)
  exact (check_eq_ok_iff_free normalized).mp alone

end Layout

namespace Archive

open Files

variable {d : Descriptor} {module : Text} {artifact : Bytes} {block : SignatureBlock}
  {resources resources' normals normals' : List Resource} {hostApi : Option ApiEntry}
  {archive : Archive}

/-! ## Assembling in another order -/

/-- Resources at different paths are listed alike in every order. -/
theorem manifestJson_of_perm (json : Json) (same : normals.Perm normals')
    (distinct : ((partsOf module artifact normals).map Part.name).Nodup) :
    manifestJson json (listing module artifact normals) block hostApi =
      manifestJson json (listing module artifact normals') block hostApi := by
  have parts : (partsOf module artifact normals).Perm (partsOf module artifact normals') :=
    (same.map Part.resource).cons _
  -- Only the sorted listing is stored.
  have order : inPathOrder (listing module artifact normals) =
      inPathOrder (listing module artifact normals') := by
    rw [inPathOrder_listing, inPathOrder_listing]
    exact congrArg (List.map Part.listed) (sortedByKey_eq_of_perm Part.name parts distinct)
  unfold inPathOrder at order
  unfold manifestJson
  rw [order]

/-- A result that is refused because the layout is. -/
def IsLayoutRefusal (result : Except Fault Archive) : Prop :=
  ∃ problem, result = .error (.problem problem) ∧ problem.kind = .layoutConflict

theorem refused_of_conflicts (checked : d.IsChecked) (filled : artifact ≠ [])
    (conflicts : Layout.Conflicts (resources.map Resource.path)) :
    IsLayoutRefusal (assemble d.draft artifact block resources hostApi) := by
  obtain ⟨module, place⟩ := Draft.exists_modulePath checked
  rcases laid_or_conflicts checked place resources with ⟨free, _⟩ | ⟨_, e, refused⟩
  · exact absurd conflicts free
  · exact ⟨_, assemble_of_refused filled place refused, rfl⟩

theorem laid_of_free (checked : d.IsChecked) (place : d.draft.modulePath = .ok module)
    (free : ¬ Layout.Conflicts (resources.map Resource.path)) :
    ∃ normals, resources.mapM Resource.normalize = .ok normals ∧
      checkLayout module normals = .ok () := by
  rcases laid_or_conflicts checked place resources with ⟨_, laid⟩ | ⟨conflicts, _⟩
  · exact laid
  · exact absurd conflicts free

/-- Two orders of the same resources are both refused for their layout, or are free of conflicts and
end alike. -/
theorem assemble_perm (block : SignatureBlock) (hostApi : Option ApiEntry)
    (checked : d.IsChecked) (filled : artifact ≠ []) (same : resources.Perm resources') :
    (IsLayoutRefusal (assemble d.draft artifact block resources hostApi) ∧
        IsLayoutRefusal (assemble d.draft artifact block resources' hostApi)) ∨
      ¬ Layout.Conflicts (resources.map Resource.path) ∧
        assemble d.draft artifact block resources hostApi =
          assemble d.draft artifact block resources' hostApi := by
  have alike := Layout.conflicts_perm (same.map Resource.path)
  by_cases conflicts : Layout.Conflicts (resources.map Resource.path)
  · exact .inl ⟨refused_of_conflicts checked filled conflicts,
      refused_of_conflicts checked filled (alike.mp conflicts)⟩
  refine .inr ⟨conflicts, ?_⟩
  obtain ⟨module, place⟩ := Draft.exists_modulePath checked
  obtain ⟨normals, normalized, laid⟩ := laid_of_free checked place conflicts
  obtain ⟨normals', normalized', laid'⟩ := laid_of_free checked place (alike.not.mp conflicts)
  have order : normals.Perm normals' := by
    obtain ⟨others, given, order⟩ := mapM_of_perm same normalized
    rwa [← Except.ok.inj (given.symm.trans normalized')]
  -- Equal names would have conflicted, so sorting by them leaves nothing to the order.
  have different := nodup_of_checkLayout laid
  have distinct : ((partsOf module artifact normals).map Part.name).Nodup := by
    rw [names_partsOf]
    exact (List.nodup_cons.mp different).2
  have paths : (normals.map Resource.path).Nodup := by
    have places := (List.nodup_cons.mp (List.nodup_cons.mp different).2).2
    refine List.Nodup.of_map Layout.resourcePath ?_
    rwa [List.map_map]
  have sorted : Resource.sorted normals = Resource.sorted normals' :=
    sortedByKey_eq_of_perm Resource.path order paths
  rw [assemble_eq_of_laid filled place normalized laid,
    assemble_eq_of_laid filled place normalized' laid',
    manifestJson_of_perm _ order distinct, sorted]

/-- What can be written down of what is assembled: no size has too many digits, and what is said of
the host has a stored form. -/
structure HasWrittenForm (artifact : Bytes) (resources : List Resource)
    (hostApi : Option ApiEntry) : Prop where
  short : Decimal.isLong artifact.length = false
  sizes : ∀ r ∈ resources, Decimal.isLong r.data.length = false
  api : ∀ entry, hostApi = some entry → entry.toJson.IsPlain

/-- What is free of conflicts and can be written down is assembled. -/
theorem assembled_of_free (block : SignatureBlock) (checked : d.IsChecked)
    (writable : d.IsWritable) (filled : artifact ≠ [])
    (encodable : ∀ r ∈ resources, r.path.IsEncodable)
    (written : HasWrittenForm artifact resources hostApi)
    (free : ¬ Layout.Conflicts (resources.map Resource.path)) :
    ∃ archive normals, assemble d.draft artifact block resources hostApi = .ok archive ∧
      resources.mapM Resource.normalize = .ok normals ∧
      archive.descriptor = d.draft ∧ archive.resources = Resource.sorted normals := by
  obtain ⟨module, place⟩ := Draft.exists_modulePath checked
  obtain ⟨normals, normalized, laid⟩ := laid_of_free checked place free
  have parts :=
    part_writable writable checked place normalized encodable written.short written.sizes
  have stored := (isPlain_manifestJson block writable written.api
    (fun p member => (parts p member).1) fun p member => (parts p member).2).storedBytes_eq
  exact ⟨_, normals, assemble_of_laid filled place normalized laid stored, normalized, rfl, rfl⟩

/-! ## The file -/

/-- An archive is laid out as a container unless the name of a member is too long. -/
theorem toBytes_eq {entries : List Zip.Member} (given : archive.members = .ok entries) :
    archive.toBytes = if entries.any Zip.Member.isLongNamed then .error (.container .nameTooLong)
      else .ok (Zip.write (⟨Layout.manifestPath, archive.manifest⟩ :: entries)) := by
  have manifest : (⟨Layout.manifestPath, archive.manifest⟩ : Zip.Member).isLongNamed = false := by
    show decide (Zip.nameLimit < (Zip.nameBytes Layout.manifestPath).length) = false
    decide
  unfold toBytes
  simp only [given, bind, Except.bind, List.any_cons, manifest, Bool.false_or]
  split <;> rfl

theorem isNeverCommitted_of_longNamed {entries : List Zip.Member} {m : Zip.Member}
    (given : archive.members = .ok entries) (inside : m ∈ entries) (long : m.isLongNamed = true) :
    archive.IsNeverCommitted (.container .nameTooLong) := by
  have failed := toBytes_eq given
  rw [if_pos (List.any_eq_true.mpr ⟨m, inside, long⟩)] at failed
  exact isNeverCommitted_of_toBytes failed

/-- Wherever an archive is new it is the same file, or a name is too long and it is none. -/
theorem committed_or_longNamed (place : archive.modulePath = .ok module) :
    (∃ bytes, archive.IsCommittedAs bytes) ∨
      (∃ entries, archive.members = .ok entries ∧ ∃ m ∈ entries, m.isLongNamed = true) ∧
        archive.IsNeverCommitted (.container .nameTooLong) := by
  obtain ⟨entries, given, _⟩ := archive.exists_members place
  by_cases long : entries.any Zip.Member.isLongNamed = true
  · obtain ⟨m, inside, long⟩ := List.any_eq_true.mp long
    exact .inr ⟨⟨entries, given, m, inside, long⟩,
      isNeverCommitted_of_longNamed given inside long⟩
  · have laid := toBytes_eq given
    rw [if_neg long] at laid
    exact .inl ⟨_, isCommittedAs_of_toBytes laid⟩

/-- What is signed is a checked descriptor that can be written down. -/
theorem isWritable_of_signed {draft : Draft} {handle : KeyHandle}
    (signed : Signing.sign artifact draft handle = .ok (d, block)) :
    draft = d.draft ∧ d.IsChecked ∧ d.IsWritable := by
  obtain ⟨_, _, _, _, drafted, check, message, _⟩ := Signing.sign_eq_ok signed
  obtain ⟨canonical, written, _⟩ := Signing.signedBytes_eq_ok.mp message
  exact ⟨drafted, (Draft.check_eq_ok check).2, Descriptor.isWritable_iff.mpr ⟨canonical, written⟩⟩

/-- For a signed descriptor, a module and resources with encodable paths, two orders of the
resources are both refused for their layout, though perhaps for other paths, or both are assembled
to one archive, or both end with one and the same fault because a size or what is said of the host
cannot be written down. The archive is the same file at every fresh path, unless a name in it is
too long for a container; then it is at none. -/
theorem assemble_reordered {draft : Draft} {signedFor : Bytes} {handle : KeyHandle}
    {own : SignatureBlock} (signed : Signing.sign signedFor draft handle = .ok (d, own))
    (block : SignatureBlock) (hostApi : Option ApiEntry) (filled : artifact ≠ [])
    (encodable : ∀ r ∈ resources, r.path.IsEncodable)
    (same : resources.Perm resources') :
    (IsLayoutRefusal (assemble draft artifact block resources hostApi) ∧
        IsLayoutRefusal (assemble draft artifact block resources' hostApi)) ∨
      (∃ archive, assemble draft artifact block resources hostApi = .ok archive ∧
        assemble draft artifact block resources' hostApi = .ok archive ∧
        ((∃ bytes, archive.IsCommittedAs bytes) ∨
          (∃ entries, archive.members = .ok entries ∧ ∃ m ∈ entries, m.isLongNamed = true) ∧
            archive.IsNeverCommitted (.container .nameTooLong))) ∨
      ∃ e, assemble draft artifact block resources hostApi = .error e ∧
        assemble draft artifact block resources' hostApi = .error e ∧
        ¬ HasWrittenForm artifact resources hostApi := by
  obtain ⟨rfl, checked, writable⟩ := isWritable_of_signed signed
  rcases assemble_perm block hostApi checked filled same with
    refused | ⟨free, alike⟩
  · exact .inl refused
  cases ended : assemble d.draft artifact block resources hostApi with
  | ok archive =>
      obtain ⟨module, place, _⟩ := obeysLayout_of_assemble ended
      exact .inr (.inl ⟨archive, rfl, alike.symm.trans ended, committed_or_longNamed place⟩)
  | error e =>
      refine .inr (.inr ⟨e, rfl, alike.symm.trans ended, fun form => ?_⟩)
      obtain ⟨_, _, assembled, _⟩ :=
        assembled_of_free block checked writable filled encodable form free
      exact absurd (ended.symm.trans assembled) (by simp)

end Archive

namespace Sample

open Archive Files

/-- A directory with another package in it. -/
def shelf : Workspace := ⟨received [], [], "1"⟩

/-- The path of a package that is not there yet. -/
def outgoing : Path := Path.ofText "demo.spkg"

theorem isFresh_outgoing : IsFresh outgoing shelf where
  sound := Tree.isSound_of_nodes rfl (by decide)
  name := Path.isPlainName_of_length (by decide) (by decide)
  mark := by decide
  other := by decide
  made := rfl
  free := ⟨["demo.spkg"], rfl, rfl⟩
  stage := ⟨[".simpack-stage-1"], rfl, rfl⟩
  staged := ⟨_, rfl, by decide⟩

set_option maxRecDepth 100000 in
theorem exists_signed : ∃ d block,
    Signing.sign [0x4D] sample.draft (.key .zero) = .ok (d, block) := by
  have run : passes (Signing.sign [0x4D] sample.draft (.key .zero)) (fun _ => true) = true := by
    decide +kernel
  obtain ⟨⟨d, block⟩, signed, _⟩ := exists_of_passes run
  exact ⟨d, block, signed⟩

/-- The names in a package with the two resources are short. -/
theorem not_isLongNamed_apart {archive : Archive} {entries : List Zip.Member}
    (drafted : archive.descriptor = sample.draft)
    (sorted : archive.resources = Resource.sorted [⟨"a/b", [1]⟩, ⟨"ab", [2]⟩])
    (given : archive.members = .ok entries) : ∀ m ∈ entries, ¬ m.isLongNamed = true := by
  have place : archive.modulePath = .ok modulePath := by
    rw [Archive.modulePath, drafted]
    rfl
  obtain ⟨_, given', order⟩ := archive.exists_members place
  obtain rfl := Except.ok.inj (given.symm.trans given')
  intro m inside
  have named : m.name ∈ [modulePath, Layout.resourcePath "a/b", Layout.resourcePath "ab"] := by
    have inside := List.mem_map_of_mem (f := Zip.Member.name) (order.mem_iff.mp inside)
    rwa [names_entriesAt, sorted] at inside
  have short : ∀ name ∈ [modulePath, Layout.resourcePath "a/b", Layout.resourcePath "ab"],
      ¬ Zip.nameLimit < (Zip.nameBytes name).length := by decide
  exact fun long => short m.name named (of_decide_eq_true long)

/-- Two resources are assembled to one archive in either order, and it is one file at a new path. -/
theorem assemble_reordered_of_two :
    ∃ d block archive bytes, Signing.sign [0x4D] sample.draft (.key .zero) = .ok (d, block) ∧
      assemble sample.draft [0x4D] block apart none = .ok archive ∧
      assemble sample.draft [0x4D] block apart.reverse none = .ok archive ∧
      IsFresh outgoing shelf ∧ archive.IsCommittedAs bytes := by
  obtain ⟨d, block, signed⟩ := exists_signed
  obtain ⟨drafted, checked, writable⟩ := isWritable_of_signed signed
  have encodable : ∀ r ∈ apart, r.path.IsEncodable := by
    simp only [apart, List.forall_mem_cons, List.not_mem_nil, false_implies, implies_true,
      and_true]
    exact ⟨Text.isEncodable_ofString _, Text.isEncodable_ofString _⟩
  have normal : (apart.map Resource.path).mapM Layout.normalize = .ok ["a/b", "ab"] := by rfl
  have form : HasWrittenForm [0x4D] apart none := ⟨by decide, by decide, by simp⟩
  obtain ⟨archive, normals, assembled, normalized, same, sorted⟩ :=
    assembled_of_free block checked writable (List.cons_ne_nil _ _) encodable form
      ((Layout.check_eq_ok_iff_free normal).mp (by rfl))
  obtain rfl : normals = [⟨"a/b", [1]⟩, ⟨"ab", [2]⟩] :=
    Except.ok.inj (normalized.symm.trans (by rfl))
  rw [← drafted] at assembled same
  rcases assemble_reordered signed block none (List.cons_ne_nil _ _) encodable
      (List.reverse_perm apart).symm with
    ⟨⟨_, refused, _⟩, _⟩ | ⟨archive', first, second, committed⟩ | ⟨_, failed, _⟩
  · exact absurd (assembled.symm.trans refused) (by simp)
  · obtain rfl := Except.ok.inj (assembled.symm.trans first)
    rcases committed with ⟨bytes, committed⟩ | ⟨⟨_, given, m, inside, long⟩, _⟩
    · exact ⟨d, block, archive, bytes, signed, first, second, isFresh_outgoing, committed⟩
    · exact absurd long (not_isLongNamed_apart same sorted given m inside)
  · exact absurd (assembled.symm.trans failed) (by simp)

/-- A resource with a name of one byte more than a container can tell. -/
def longNamed : Resource := ⟨List.replicate 65526 0x61, [1]⟩

/-- A version of the host with a flag that has no UTF-8 form. -/
def loneFlag : ApiEntry := ⟨⟨1, 0, 0, [], []⟩, [[0xD800]], false, false, []⟩

theorem isPlain_longNamed : Layout.IsPlain longNamed.path := by
  have letters : ∀ c ∈ longNamed.path, c = 0x61 := fun c => List.eq_of_mem_replicate
  have noSlash : Path.slash ∉ longNamed.path := fun inside =>
    absurd (letters _ inside) (by decide)
  constructor
  · exact fun inside => absurd (letters _ inside) (by decide)
  · intro name member
    rw [Text.splitOn, Text.splitWhere_of_none fun c inside => by rw [letters c inside]; rfl,
      List.mem_singleton] at member
    rw [member]
    exact Path.isPlainName_of_length (by rw [longNamed, List.length_replicate]; omega) noSlash

theorem isLongNamed_longNamed :
    (⟨Layout.resourcePath longNamed.path, longNamed.data⟩ : Zip.Member).isLongNamed = true := by
  have plain : 0 ∉ Layout.resourcePath longNamed.path := by
    rw [Layout.resourcePath, List.mem_append, not_or]
    exact ⟨by decide, fun inside => absurd (List.eq_of_mem_replicate inside) (by decide)⟩
  have points : (Layout.resourcePath longNamed.path).length = 65536 := by
    have start : Layout.resourcesStart.length = 10 := rfl
    have rest : longNamed.path.length = 65526 := List.length_replicate
    rw [Layout.resourcePath, List.length_append, start, rest]
  have bytes := Zip.length_le_nameBytes plain
  rw [points] at bytes
  exact decide_eq_true (Nat.lt_of_lt_of_le (Nat.lt_succ_self Zip.nameLimit) bytes)

set_option maxRecDepth 100000 in
/-- For a version of the host that cannot be written down nothing is assembled. -/
theorem exists_unencodable_loneFlag : ∃ block e,
    assemble sample.draft [0x4D] block [] (some loneFlag) = .error (.unencodable e) :=
  ⟨⟨.ed25519, List.replicate 32 0, [0], [0]⟩, _, rfl⟩

/-- A resource with too long a name is assembled, and the archive cannot be committed to a path
where nothing is; and for a version of the host that cannot be written down nothing is assembled,
though no layout is refused. -/
theorem longNamed_not_committed :
    ∃ d block, Signing.sign [0x4D] sample.draft (.key .zero) = .ok (d, block) ∧
      (∀ r ∈ [longNamed], r.path.IsEncodable) ∧
      (∃ archive, assemble sample.draft [0x4D] block [longNamed] none = .ok archive ∧
        IsFresh outgoing shelf ∧ archive.IsNeverCommitted (.container .nameTooLong)) ∧
      ∃ block e, assemble sample.draft [0x4D] block [] (some loneFlag) =
        .error (.unencodable e) := by
  obtain ⟨d, block, signed⟩ := exists_signed
  obtain ⟨drafted, checked, writable⟩ := isWritable_of_signed signed
  have encodable : ∀ r ∈ [longNamed], r.path.IsEncodable := by
    rw [List.forall_mem_singleton]
    refine Text.isEncodable_of_ascii fun c inside => ?_
    rw [List.eq_of_mem_replicate inside]
    decide
  have form : HasWrittenForm [0x4D] [longNamed] none :=
    ⟨by decide, List.forall_mem_singleton.mpr (by decide), by simp⟩
  obtain ⟨archive, normals, assembled, normalized, same, sorted⟩ :=
    assembled_of_free block checked writable (List.cons_ne_nil _ _) encodable form
      (Layout.not_conflicts_of_plain isPlain_longNamed)
  have normal : [longNamed].mapM Resource.normalize = .ok [longNamed] := by
    rw [List.mapM_cons, Resource.normalize_eq_ok.mpr ⟨isPlain_longNamed.normalize_eq, rfl⟩]
    rfl
  obtain rfl := Except.ok.inj (normalized.symm.trans normal)
  rw [← drafted] at assembled
  obtain ⟨module, place, _⟩ := obeysLayout_of_assemble assembled
  -- The one resource keeps its path, and the member that holds it has it behind the directory.
  obtain ⟨entries, given, order⟩ := archive.exists_members place
  have inside : ⟨Layout.resourcePath longNamed.path, longNamed.data⟩ ∈ entries := by
    rw [order.mem_iff, entriesAt, sorted]
    exact List.mem_cons_of_mem _ (List.mem_map_of_mem (mem_sortedBy.mpr List.mem_cons_self))
  exact ⟨d, block, signed, encodable, ⟨archive, assembled, isFresh_outgoing,
    isNeverCommitted_of_longNamed given inside isLongNamed_longNamed⟩, exists_unencodable_loneFlag⟩

end Sample

end ModulePackaging
