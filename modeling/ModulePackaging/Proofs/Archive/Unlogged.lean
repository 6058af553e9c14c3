import ModulePackaging.Proofs.Agreement
import ModulePackaging.Proofs.Archive.Staging
import ModulePackaging.Proofs.Build.Stages

/-!
# Publishing does not depend on the log

An archive is committed, and its release recorded and taken back, with the same result and the same
files whatever is in the log.
-/

namespace ModulePackaging

open Files Action

theorem Action.IsDeaf.writeFile (p : Path) (content : Bytes) :
    IsDeaf (Action.writeFile p content) := change _

theorem Action.IsDeaf.storeJson (p : Path) (value : Json) : IsDeaf (Action.storeJson p value) := by
  rw [storeJson_eq]
  refine (makeDirectories _).bind fun _ => ?_
  refine get_bind (f := fun mark =>
    if p.parts.isEmpty then MonadExcept.throw (.files (.noName p.toText))
    else do
      let bytes ← Action.ofExcept id value.storedBytes
      Action.writeFile (p.temporary mark) (bytes ++ [0x0A])
      Action.change (·.replace (p.temporary mark) p)) fun mark => ?_
  split
  · exact throw _
  · exact (of_looks (Looks.ofExcept _ _)).bind fun _ => (writeFile _ _).bind fun _ => change _

namespace Ledger

theorem looks_load (p : Path) : Looks (load p) := LooksAt.anywhere (looksAt_load trivial)

theorem isDeaf_load (p : Path) : IsDeaf (load p) := .of_looks (looks_load p)

theorem isDeaf_save (ledger : Ledger) (p : Path) : IsDeaf (ledger.save p) := by
  unfold save
  split
  · exact IsDeaf.throw _
  · exact IsDeaf.storeJson p _

theorem isDeaf_record (p : Path) (d : Descriptor) : IsDeaf (record p d) := by
  refine (isDeaf_load p).bind fun ledger => ?_
  refine (IsDeaf.of_looks (Looks.ofExcept _ _)).bind fun _ => ?_
  exact (isDeaf_save _ p).bind fun _ => .of_looks (Looks.pure _)

theorem isDeaf_rollback (p : Path) (d : Descriptor) (prior : Option LedgerEntry) :
    IsDeaf (rollback p d prior) := by
  refine (isDeaf_load p).bind fun ledger => ?_
  cases prior with
  | none => exact isDeaf_save _ p
  | some entry => exact isDeaf_save _ p

end Ledger

namespace Archive

theorem isDeaf_moveInto (staged out : Path) (overwrite : Bool) :
    IsDeaf (moveInto staged out overwrite) := by
  cases overwrite with
  | true =>
      have replaces : IsDeaf (Action.change (·.replace staged out)) := IsDeaf.change _
      exact replaces
  | false =>
      intro u v _ files mark
      rw [outcome_moveInto_link, outcome_moveInto_link, files]
      split
      · exact ⟨.ok rfl, fun _ _ => trivial, rfl, mark⟩
      · exact ⟨.error rfl, fun _ _ => trivial, files, mark⟩
      · exact ⟨.error rfl, fun _ _ => trivial, files, mark⟩

theorem isDeaf_stageAndMove (archive : Archive) (stage out : Path) (overwrite : Bool) :
    IsDeaf (archive.stageAndMove stage out overwrite) := by
  rw [stageAndMove_eq]
  refine (IsDeaf.writeFile _ _).bind fun _ => ?_
  refine (IsDeaf.of_looks (Looks.ofExcept _ _)).bind fun bytes => ?_
  exact (IsDeaf.writeFile _ _).bind fun _ => isDeaf_moveInto _ out overwrite

/-- Work and what follows it in any case are deaf together. -/
theorem isDeaf_finishing {α : Type} {body : Action α} {last : Action Unit} (first : IsDeaf body)
    (second : IsDeaf last) : IsDeaf (finishing body last) := by
  intro u v kind files mark
  obtain ⟨result, _, same, marked⟩ := first u v kind files mark
  obtain ⟨_, _, same', marked'⟩ := second _ _ trivial same marked
  rw [outcome_finishing, outcome_finishing]
  exact ⟨result, fun _ _ => trivial, same', marked'⟩

theorem looks_tellSize (out : Path) : Looks (tellSize out) :=
  LooksAt.anywhere (looksAt_tellSize trivial)

theorem isDeaf_commit (archive : Archive) (out : Path) (overwrite : Bool) :
    IsDeaf (archive.commit out overwrite) := by
  rw [commit_eq, makeWay_eq]
  have refuses : IsDeaf (refuseTaken out overwrite) :=
    .of_looks (looks_refuseTaken out overwrite)
  have puts : IsDeaf (archive.putInPlace out overwrite) := by
    refine IsDeaf.get_bind (f := fun mark => do
      Action.change (·.makeDirectory (stageOf out mark))
      finishing (archive.stageAndMove (stageOf out mark) out overwrite)
        (Action.change (·.remove (stageOf out mark)))) fun mark => ?_
    exact (IsDeaf.change _).bind fun _ =>
      isDeaf_finishing (isDeaf_stageAndMove archive _ out overwrite) (IsDeaf.change _)
  have tells : IsDeaf (tellSize out) :=
    .of_looks (looks_tellSize out)
  exact ((IsDeaf.makeDirectories _).bind fun _ => refuses).bind fun _ => puts.bind fun _ => tells

theorem isDeaf_publish (archive : Archive) (d : Descriptor) (out : Path) (overwrite : Bool)
    (ledger : Option Path) : IsDeaf (archive.publish d out overwrite ledger) := by
  cases ledger with
  | none => exact isDeaf_commit archive out overwrite
  | some p =>
      refine (Ledger.isDeaf_record p d).bind fun prior => ?_
      refine (isDeaf_commit archive out overwrite).tryCatch fun fault => ?_
      exact (Ledger.isDeaf_rollback p d prior).bind fun _ => IsDeaf.throw fault

end Archive

end ModulePackaging
