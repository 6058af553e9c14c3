import ModulePackaging.Proofs.Archive.Commit
import ModulePackaging.Proofs.Archive.RoundTrip

/-!
# Committed archives are read back

Signing, assembling, committing and reading one after the other gives the archive that was
assembled, or a refusal of the file as broken; and which of the two it is depends on the paths of the
resources and the end of the file only.
-/

namespace ModulePackaging.Archive

open Action

variable {archive : Archive} {artifact : Bytes} {draft : Draft} {handle : KeyHandle}
  {d : Descriptor} {block : SignatureBlock} {resources : List Resource}
  {hostApi : Option ApiEntry} {out : Path} {overwrite : Bool} {w w' : Workspace}

/-- A package of one byte. -/
def sample : Descriptor where
  name := "demo"
  numericId := 7
  version := "1.0.0"
  buildId := ""
  buildIdNamespace := "demo"
  confidentiality := .everyone
  hostTriple := "x86_64-linux"
  docTitle := "demo"
  description := ""

/-- Resources whose paths have no null characters have none in their normal forms. -/
theorem nonzero_of_normalized {normal : List Resource}
    (h : resources.mapM Resource.normalize = .ok normal) (plain : ∀ r ∈ resources, 0 ∉ r.path) :
    ∀ r ∈ normal, 0 ∉ r.path := by
  intro r member
  obtain ⟨source, inside, normalized⟩ := Resource.exists_of_normalized h r member
  exact Layout.nonzero_of_normalize normalized (plain source inside)

/-- A signed archive is laid out. -/
theorem isLaidOut_of_signed (signed : Signing.sign artifact draft handle = .ok (d, block))
    (canonical : ∀ entry, hostApi = some entry → entry.IsCanonical)
    (assembled : assemble draft artifact block resources hostApi = .ok archive) :
    ∃ path normal, archive.IsLaidOut d path normal hostApi ∧
      resources.mapM Resource.normalize = .ok normal ∧
      archive.artifact = artifact ∧ archive.signature = block := by
  obtain ⟨key, bytes, _, _, rfl, checked, _, rfl⟩ := Signing.sign_eq_ok signed
  exact isLaidOut_of_assemble checked (SignatureBlock.isWellFormed_blockFor key bytes) canonical
    assembled

/-- A signed archive that is committed is read back as it was or refused as broken, and it is read
back if no path of a resource has a null character and the end of the file does not look like that
of a wide container. -/
theorem readFrom_commit (signed : Signing.sign artifact draft handle = .ok (d, block))
    (canonical : ∀ entry, hostApi = some entry → entry.IsCanonical)
    (assembled : assemble draft artifact block resources hostApi = .ok archive)
    (narrow : archive.IsNarrow)
    (committed : (archive.commit out overwrite).outcome w = (.ok (), w')) :
    ((∃ problem, readFrom w'.files out = .error (.problem problem) ∧ problem.kind = .integrity) ∨
        readFrom w'.files out = .ok archive) ∧
      ((∀ r ∈ resources, 0 ∉ r.path) →
        (∀ bytes, w'.files.read out = .ok bytes → Zip.seemsWide bytes = false) →
          readFrom w'.files out = .ok archive) := by
  obtain ⟨path, normal, laidOut, normalized, _, _⟩ :=
    isLaidOut_of_signed signed canonical assembled
  obtain ⟨bytes, written, stored⟩ := read_of_commit committed
  constructor
  · by_cases readable : archive.IsReadable bytes
    · exact .inr (readFrom_of_readable laidOut narrow written stored readable)
    · exact .inl (readFrom_of_not_readable laidOut narrow written stored readable)
  · intro plain plainEnd
    refine readFrom_of_readable laidOut narrow written stored ⟨?_, plainEnd bytes stored⟩
    intro r member
    rw [laidOut.sorted] at member
    exact nonzero_of_normalized normalized plain r (mem_sortedBy.mp member)

set_option maxRecDepth 100000 in
/-- A package with a resource is signed, committed and read back. -/
theorem readFrom_commit_sample :
    ∃ d block archive w', Signing.sign [0x4D] sample.draft (.key .zero) = .ok (d, block) ∧
      assemble sample.draft [0x4D] block [⟨"a", [1]⟩] none = .ok archive ∧ archive.IsNarrow ∧
      (archive.commit (Path.ofText "demo.spkg") false).outcome ⟨.empty ["p"], [], "1"⟩ =
        (.ok (), w') ∧
      readFrom w'.files (Path.ofText "demo.spkg") = .ok archive := by
  have run : passes (Signing.sign [0x4D] sample.draft (.key .zero)) (fun signed =>
      passes (assemble sample.draft [0x4D] signed.2 [⟨"a", [1]⟩] none) fun archive =>
        decide archive.IsNarrow &&
          (archive.commit (Path.ofText "demo.spkg") false).gives ⟨.empty ["p"], [], "1"⟩ fun _ w' =>
            passes (w'.files.read (Path.ofText "demo.spkg")) fun bytes => !Zip.seemsWide bytes) =
      true := by
    decide +kernel
  obtain ⟨⟨d, block⟩, signed, run⟩ := exists_of_passes run
  obtain ⟨archive, assembled, run⟩ := exists_of_passes run
  obtain ⟨narrow, run⟩ := (Bool.and_eq_true _ _).mp run
  obtain ⟨_, w', committed, run⟩ := exists_of_gives run
  obtain ⟨bytes, stored, plain⟩ := exists_of_passes run
  have narrow := of_decide_eq_true narrow
  refine ⟨d, block, archive, w', signed, assembled, narrow, committed,
    (readFrom_commit signed (by simp) assembled narrow committed).2 ?_ ?_⟩
  · intro r member
    obtain rfl := List.mem_singleton.mp member
    decide
  · intro found same
    obtain rfl := Except.ok.inj (stored.symm.trans same)
    simpa using plain

end ModulePackaging.Archive
