import ModulePackaging.Proofs.Archive.Staging

/-!
# Committing in two workspaces

An archive is committed alike in two workspaces that the commit finds alike: refused in both with
the same fault, or put in place in both. The staging directory leaves nothing behind in either.
-/

namespace ModulePackaging

open Files Files.Tree Action

variable {u v u' v' : Workspace} {reach : Reach} {own : Location → Prop} {p out staged : Path}
  {name : Text} {overwrite : Bool}

theorem Path.parent_join (p : Path) (plain : IsPlainName name) : (p / ofText name).parent = p := by
  rw [join_of_plain p plain, parent, List.dropLast_concat]

/-- A path right below another one is passed when that one is, if its place is seen. -/
theorem Reach.Passes.join (passes : reach.Passes p) (plain : Path.IsPlainName name)
    (place : reach.seen (reach.placeOf (p / Path.ofText name))) :
    reach.Passes (p / Path.ofText name) := by
  refine Reach.passes_of_parent (fun l passed => ?_) place
  rw [Path.parent_join p plain] at passed
  exact passes l passed

/-- What a commit looks at: the path of the file, its place and that of the stage beside it. -/
structure Reach.Commits (reach : Reach) (out : Path) : Prop where
  path : reach.paths out
  place : reach.seen (reach.placeOf out)
  stage : reach.seen (reach.placeOf (Archive.stageOf out reach.start.mark))

namespace Archive

theorem moveInto_abreast (company : Company reach u v) (passes : reach.Passes staged)
    (passes' : reach.Passes out) (there : own (reach.placeOf staged))
    (here : own (reach.placeOf out)) : Abreast own (moveInto staged out overwrite) u v := by
  cases overwrite with
  | true => exact .replace company passes passes' there here
  | false =>
      have linked : Lockstep own u.files v.files (u.files.link staged out)
          (v.files.link staged out) :=
        link_lockstep company.pair (company.locate_eq passes) (company.locate_eq passes')
          (company.place_eq passes) (company.place_eq passes') ((company.placeOf out).symm ▸ here)
      rcases linked with ⟨e, refused, refused'⟩ | ⟨files, files', made, made', together⟩
      · have ends : ∃ fault, (moveInto staged out false).outcome u = (.error fault, u) ∧
            (moveInto staged out false).outcome v = (.error fault, v) := by
          rw [outcome_moveInto_link, outcome_moveInto_link, refused, refused']
          split
          · exact absurd ‹_› (by simp)
          · exact ⟨_, rfl, rfl⟩
          · exact ⟨_, rfl, rfl⟩
        obtain ⟨fault, ended, ended'⟩ := ends
        exact .of_ends _ _ _ ended ended' rfl rfl (Together.refl company.pair)
      · refine .of_ends (.ok ()) { u with files } { v with files := files' } ?_ ?_ rfl rfl together
        · rw [outcome_moveInto_link, made]
        · rw [outcome_moveInto_link, made']

/-- An archive is staged and moved alike where the staged path and the path of the file are
passed. -/
theorem stageAndMove_abreast {archive : Archive} {stage : Path} (company : Company reach u v)
    (passes : reach.Passes (stage / Path.ofText out.name)) (passes' : reach.Passes out)
    (there : own (reach.placeOf (stage / Path.ofText out.name)))
    (here : own (reach.placeOf out)) :
    Abreast own (archive.stageAndMove stage out overwrite) u v := by
  rw [stageAndMove_eq]
  have opened : Abreast own (Action.writeFile (stage / Path.ofText out.name) []) u v :=
    .writeFile company passes there []
  refine opened.bind company fun _ u₁ v₁ met₁ _ => ?_
  have laid : Abreast own (Action.ofExcept id archive.toBytes) u₁ v₁ :=
    .of_looks met₁ (LooksAt.ofExcept _ _)
  refine laid.bind met₁ fun bytes u₂ v₂ met₂ _ => ?_
  have written : Abreast own (Action.writeFile (stage / Path.ofText out.name) bytes) u₂ v₂ :=
    .writeFile met₂ passes there bytes
  refine written.bind met₂ fun _ u₃ v₃ met₃ _ => ?_
  exact moveInto_abreast met₃ passes passes' there here

/-- Work in a directory that is new in both trees and taken away afterwards owns nothing in it. -/
theorem together_around {s : Location} {t t' tree tree' : Tree} (pair : Comparable t t')
    (nothing : t.node? s = none) (nothing' : t'.node? s = none)
    (inside : Together (fun l => own l ∨ s <+: l) t t' tree tree') :
    Together own t t' (tree.erase s) (tree'.erase s) := by
  have spared := pair.first.not_prefix_home (l := s) (by simp [nothing])
  have spared' := pair.second.not_prefix_home (l := s) (by simp [nothing'])
  refine ⟨inside.first, inside.second, inside.sound.erase (inside.first.symm ▸ spared),
    inside.sound'.erase (inside.second.symm ▸ spared'), fun l => ?_⟩
  rw [node?_erase tree (ne_nil_of_none nothing), node?_erase tree' (ne_nil_of_none nothing)]
  by_cases under : s <+: l
  · rw [if_pos under, if_pos under, pair.first.none_below nothing under,
      pair.second.none_below nothing' under]
    exact .inl ⟨rfl, rfl⟩
  · rw [if_neg under, if_neg under]
    rcases inside.node l with kept | ⟨here, same⟩ | made
    · exact .inl kept
    · exact .inr (.inl ⟨here.resolve_right under, same⟩)
    · exact .inr (.inr made)

/-- In a directory that is new in both trees, both have the same: nothing. -/
theorem node?_new_eq {s l : Location} {t t' : Tree} (pair : Comparable t t')
    (nothing : t.node? s = none) (nothing' : t'.node? s = none) (under : s <+: l) :
    (t'.set s .directory).node? l = (t.set s .directory).node? l := by
  by_cases same : l = s
  · rw [same, node?_set_self (ne_nil_of_none nothing), node?_set_self (ne_nil_of_none nothing)]
  · rw [node?_set_of_ne same, node?_set_of_ne same, pair.first.none_below nothing under,
      pair.second.none_below nothing' under]

/-- An archive is put in place alike where the stage and the path of the file are passed. -/
theorem putInPlace_abreast {archive : Archive} (company : Company reach u v)
    (name : Path.IsPlainName out.name) (passes : reach.Passes (stageOf out reach.start.mark))
    (passes' : reach.Passes out) (here : own (reach.placeOf out)) :
    Abreast own (archive.putInPlace out overwrite) u v := by
  have made : Lockstep (fun l => own l ∨ reach.placeOf (stageOf out reach.start.mark) <+: l)
      u.files v.files (u.files.makeDirectory (stageOf out reach.start.mark))
      (v.files.makeDirectory (stageOf out reach.start.mark)) := by
    refine makeDirectory_lockstep company.pair (company.locate_eq passes)
      (company.place_eq passes) ?_
    rw [company.placeOf]
    exact .inr (List.prefix_refl _)
  rcases made with ⟨e, refused, refused'⟩ | ⟨files, files', made, made', together⟩
  · exact .of_ends _ u v (putInPlace_of_refused (company.mark.symm ▸ refused))
      (putInPlace_of_refused (company.mark'.symm ▸ refused')) rfl rfl (Together.refl company.pair)
  have toStage := makeDirectory_eq_ok made
  have toStage' := makeDirectory_eq_ok made'
  rw [← company.mark] at made
  rw [← company.mark'] at made'
  obtain ⟨s, found, rfl, nothing, _⟩ := toStage
  obtain ⟨s', found', rfl, nothing', _⟩ := toStage'
  have place : s = reach.placeOf (stageOf out reach.start.mark) :=
    (resolve_eq_placeOf found).trans (company.placeOf _)
  have place' : s' = s := by
    rw [resolve_eq_placeOf found', resolve_eq_placeOf found, company.pair.placeOf]
  subst place'
  have after : Company reach { u with files := u.files.set s' .directory }
      { v with files := v.files.set s' .directory } := company.of_together rfl rfl together
  have met : Company (reach.see (s' <+: ·)) { u with files := u.files.set s' .directory }
      { v with files := v.files.set s' .directory } :=
    after.see fun l under => node?_new_eq company.pair nothing nothing' under
  have staged : s' <+: reach.placeOf (stageOf out reach.start.mark / Path.ofText out.name) := by
    rw [place, Reach.placeOf, Reach.placeOf, placeOf_join name]
    exact List.prefix_append _ _
  have work : Abreast (fun l => own l ∨ reach.placeOf (stageOf out reach.start.mark) <+: l)
      (archive.stageAndMove (stageOf out reach.start.mark) out overwrite)
      { u with files := u.files.set s' .directory } { v with files := v.files.set s' .directory } :=
    stageAndMove_abreast met (passes.see.join name (.inr staged)) passes'.see
      (.inr (place ▸ staged)) (.inl here)
  obtain ⟨result, u₁, v₁, ended, ended', mark, mark', files⟩ := work.ends
  rw [← company.mark] at ended
  rw [← company.mark'] at ended'
  refine .of_ends _ _ _ (putInPlace_of_made company.pair.first made ended)
    (putInPlace_of_made company.pair.second made' ended') mark mark' ?_
  rw [company.pair.placeOf, company.mark, company.mark', ← resolve_eq_placeOf found]
  exact together_around company.pair nothing nothing' (place ▸ together.trans files)

/-- A commit ends alike in two workspaces that it finds alike. -/
theorem commit_abreast {archive : Archive} (company : Company reach u v)
    (commits : reach.Commits out) (name : Path.IsPlainName out.name)
    (plain : Path.slash ∉ reach.start.mark) :
    Abreast reach.seen (archive.commit out overwrite) u v := by
  rw [commit_eq]
  have opening : Abreast reach.seen (Action.makeDirectories out.parent) u v :=
    .makeDirectories company commits.path
  have way : Abreast reach.seen (makeWay out overwrite) u v :=
    opening.bind company fun _ u₁ v₁ met _ =>
      .of_looks met (looksAt_refuseTaken commits.path overwrite)
  refine way.bind company fun _ u₁ v₁ met made => ?_
  obtain ⟨l, found, directory⟩ := parent_of_makeWay made
  have opened := met.opened commits.path found directory
  have passes : (reach.see (reach.start.files.IsOnWay out.parent)).Passes out :=
    Reach.passes_of_parent (fun _ => .inr) (.inl commits.place)
  have parent : (reach.see (reach.start.files.IsOnWay out.parent)).Passes out.parent :=
    fun _ => .inr
  have put : Abreast reach.seen (archive.putInPlace out overwrite) u₁ v₁ :=
    putInPlace_abreast opened name (parent.join (isPlainName_stage plain) (.inl commits.stage))
      passes commits.place
  refine put.bind met fun _ u₂ v₂ met _ => ?_
  exact .of_looks met (looksAt_tellSize commits.path)

end Archive

end ModulePackaging
