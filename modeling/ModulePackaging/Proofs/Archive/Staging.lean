import ModulePackaging.Proofs.Archive.Commit

/-!
# What a commit leaves

A commit touches the place of the file only when it succeeds. In any case the staging directory is
gone afterwards with all that was put into it, and what else is new are directories above the place
of the file.
-/

namespace ModulePackaging.Archive

open Files Action Tree

variable {archive : Archive} {stage out : Path} {overwrite : Bool} {w w' : Workspace}
  {result : Except Fault Unit} {touched made : Location → Prop}

/-- A move that fails changes nothing. -/
theorem moveInto_leaves {staged : Path} (sound : w.files.IsSound)
    (there : touched (w.files.placeOf staged))
    (here : result = .ok () → touched (w.files.placeOf out))
    (h : (moveInto staged out overwrite).outcome w = (result, w')) : Leaves touched made w w' := by
  obtain ⟨e, ends⟩ := outcome_moveInto staged out overwrite w
  rw [ends] at h
  split at h
  · rename_i files moved
    cases h
    refine ⟨rfl, ?_⟩
    cases overwrite with
    | true => exact replace_evolves sound moved (here rfl) there
    | false => exact link_evolves sound moved (here rfl)
  · cases h
    exact Leaves.refl sound

/-- Staging touches the staged file, and the place of the file when it succeeds. -/
theorem stageAndMove_leaves (sound : w.files.IsSound)
    (staged : touched (w.files.placeOf (stage / Path.ofText out.name)))
    (here : result = .ok () → touched (w.files.placeOf out))
    (h : (archive.stageAndMove stage out overwrite).outcome w = (result, w')) :
    Leaves touched made w w' := by
  rw [stageAndMove_eq] at h
  rcases bind_ends h with ⟨e, first, rfl⟩ | ⟨_, w₁, first, h⟩
  · exact Leaves.writeFile sound staged first
  have opened : Leaves touched made w w₁ := Leaves.writeFile sound staged first
  rcases bind_ends h with ⟨e, laid, rfl⟩ | ⟨bytes, w₂, laid, h⟩
  · exact opened.trans (.of_looks (Looks.ofExcept _ _) opened.files.sound laid)
  have same : Leaves touched made w w₂ :=
    opened.trans (.of_looks (Looks.ofExcept _ _) opened.files.sound laid)
  have stagedStill : touched (w₂.files.placeOf (stage / Path.ofText out.name)) :=
    (same.files.placeOf _).symm ▸ staged
  rcases bind_ends h with ⟨e, second, rfl⟩ | ⟨_, w₃, second, moved⟩
  · exact same.trans (.writeFile same.files.sound stagedStill second)
  have written : Leaves touched made w w₃ :=
    same.trans (.writeFile same.files.sound stagedStill second)
  refine written.trans (moveInto_leaves written.files.sound ?_ ?_ moved)
  · rw [written.files.placeOf]
    exact staged
  · intro ends
    rw [written.files.placeOf]
    exact here ends

/-! ## The staging directory -/

/-- The name of a staging directory is plain. -/
theorem isPlainName_stage {mark : Text} (plain : Path.slash ∉ mark) :
    Path.IsPlainName (stagingStart ++ mark) := by
  refine Path.isPlainName_of_length ?_ ?_
  · have start : 2 < stagingStart.length := by decide
    rw [List.length_append]
    omega
  · rw [List.mem_append, not_or]
    exact ⟨by decide, plain⟩

/-- Work in a directory that is new and taken away afterwards leaves what it did elsewhere. -/
theorem evolves_around {tree tree' : Tree} {s : Location} (sound : tree.IsSound)
    (nothing : tree.node? s = none)
    (inside : Evolves (fun l => s <+: l ∨ touched l) (fun _ => False) (tree.set s .directory) tree') :
    Evolves touched made tree (tree'.erase s) := by
  -- Before, nothing is on or below the stage; afterwards all of it is erased.
  have below : ∀ k, s <+: k → tree.node? k = none := fun k => sound.none_below nothing
  have after := node?_erase tree' (ne_nil_of_none nothing)
  have outside : ∀ k, ¬ s <+: k → (tree.set s .directory).node? k = tree.node? k := by
    intro k out
    apply node?_set_of_ne
    rintro rfl
    exact out (List.prefix_refl _)
  have home : tree'.home = tree.home := inside.home
  refine ⟨home, inside.sound.erase ?_, ?_, ?_, ?_⟩
  · rw [home]
    exact sound.not_prefix_home (by simp [nothing])
  · intro l there
    have out : ¬ s <+: l := by
      intro under
      rw [below l under] at there
      exact absurd there (by simp)
    rw [after, if_neg out]
    apply inside.directories
    rw [outside l out, there]
  · intro l spared _
    rw [after]
    split
    · rename_i under
      exact (below l under).symm
    · rename_i out
      rw [← outside l out]
      apply inside.kept l
      · rintro (under | here)
        · exact out under
        · exact spared here
      · exact id
  · intro l there
    left
    rw [after] at there
    split at there
    · exact absurd there (by simp)
    · rename_i out
      rw [← outside l out]
      exact (inside.made l there).resolve_right id

/-- Where the stage cannot be made, nothing is done. -/
theorem putInPlace_of_refused {e : Error}
    (refused : w.files.makeDirectory (stageOf out w.mark) = .error e) :
    (archive.putInPlace out overwrite).outcome w = (.error (.files e), w) := by
  unfold putInPlace
  rw [outcome_bind, outcome_get]
  simp only
  rw [outcome_bind, outcome_change, refused]

/-- Where the stage can be made, putting in place ends as the work in it does, and the stage is taken
away with all that is in it. -/
theorem putInPlace_of_made {files : Tree} {w₁ : Workspace} (sound : w.files.IsSound)
    (made : w.files.makeDirectory (stageOf out w.mark) = .ok files)
    (staged : (archive.stageAndMove (stageOf out w.mark) out overwrite).outcome { w with files } =
      (result, w₁)) :
    (archive.putInPlace out overwrite).outcome w =
      (result, { w₁ with files := w₁.files.erase (w.files.placeOf (stageOf out w.mark)) }) := by
  have extended := makeDirectory_extends made
  obtain ⟨s, found, rfl, nothing, _⟩ := makeDirectory_eq_ok made
  have work : Leaves (fun _ => True) (fun _ => False)
      { w with files := w.files.set s .directory } w₁ :=
    stageAndMove_leaves (extended.sound sound) trivial (fun _ => trivial) staged
  -- The stage is there still, so it can be taken away.
  have there : w₁.files.node? s = .some .directory :=
    work.files.directories s (node?_set_self (ne_nil_of_none nothing) _)
  have reached : w₁.files.resolve (stageOf out w.mark) = .ok s :=
    work.files.resolve (resolve_of_directories extended.home (fun _ => extended.directories) found)
  have gone : w₁.files.remove (stageOf out w.mark) = .ok (w₁.files.erase s) :=
    remove_eq_ok.mpr ⟨s, reached, by simp [there], rfl⟩
  unfold putInPlace
  rw [outcome_bind, outcome_get]
  simp only
  rw [outcome_bind, outcome_change, made]
  simp only [outcome_finishing]
  rw [staged]
  simp only
  rw [outcome_change, gone, ← resolve_eq_placeOf found]

/-- Putting in place ends before the stage is made, or as the work in the new stage does, and then
the stage is taken away. -/
theorem putInPlace_ends (sound : w.files.IsSound)
    (h : (archive.putInPlace out overwrite).outcome w = (result, w')) :
    ((∃ e, result = .error e) ∧ w' = w) ∨
      ∃ s w₁, w.files.resolve (stageOf out w.mark) = .ok s ∧ w.files.node? s = none ∧
        (w.files.set s .directory).IsSound ∧
        (archive.stageAndMove (stageOf out w.mark) out overwrite).outcome
          { w with files := w.files.set s .directory } = (result, w₁) ∧
        w' = { w₁ with files := w₁.files.erase s } := by
  rcases putInPlace_cases h with failed | ⟨files, w₁, made, staged, _⟩
  · exact .inl failed
  have ended := putInPlace_of_made sound made staged
  have soundWithin := (makeDirectory_extends made).sound sound
  obtain ⟨s, found, rfl, nothing, _⟩ := makeDirectory_eq_ok made
  rw [← resolve_eq_placeOf found] at ended
  exact .inr ⟨s, w₁, found, nothing, soundWithin, staged, (Prod.mk.inj (h.symm.trans ended)).2⟩

/-- The staging directory is gone when the archive is in place, and when it could not be put there. -/
theorem putInPlace_leaves (sound : w.files.IsSound) (name : Path.IsPlainName out.name)
    (here : result = .ok () → touched (w.files.placeOf out))
    (h : (archive.putInPlace out overwrite).outcome w = (result, w')) :
    Leaves touched made w w' := by
  rcases putInPlace_ends sound h with ⟨_, rfl⟩ | ⟨s, w₁, found, nothing, soundWithin, staged, rfl⟩
  · exact Leaves.refl sound
  have work : Leaves (fun l => s <+: l ∨ touched l) (fun _ => False)
      { w with files := w.files.set s .directory } w₁ := by
    refine stageAndMove_leaves soundWithin (.inl ?_) (fun ends => .inr (here ends)) staged
    show s <+: (w.files.set s .directory).placeOf _
    rw [placeOf_join name, resolve_eq_placeOf found]
    exact List.prefix_append _ _
  exact ⟨work.mark, evolves_around sound nothing work.files⟩

/-- What is in place when the stage is gone can be read. -/
theorem exists_read_of_putInPlace (sound : w.files.IsSound) (plain : Path.slash ∉ w.mark)
    (other : out.name ≠ stagingStart ++ w.mark) (name : Path.IsPlainName out.name)
    (h : (archive.putInPlace out overwrite).outcome w = (.ok (), w')) :
    ∃ bytes, w'.files.read out = .ok bytes := by
  have spread : Leaves (fun _ => True) (fun _ => False) w w' :=
    putInPlace_leaves sound name (fun _ => trivial) h
  rcases putInPlace_ends sound h with ⟨⟨e, failed⟩, _⟩ | ⟨s, w₁, found, nothing, _, staged, rfl⟩
  · exact absurd failed (by simp)
  obtain ⟨bytes, mode, _, _, moved, tree, _, elsewhere⟩ := stageAndMove_gives staged
  have reached : w.files.resolve out = .ok (w.files.placeOf out) :=
    resolve_of_beside (Path.parts_ne_nil name.some) (isPlainName_stage plain) found elsewhere
  refine ⟨bytes, read_eq_ok.mpr ⟨_, mode, spread.files.resolve reached, ?_⟩⟩
  show (w₁.files.erase s).node? (w.files.placeOf out) = _
  rw [node?_erase_of_not_below]
  · exact moved
  · rw [resolve_eq_placeOf found, stageOf, placeOf_join (isPlainName_stage plain),
      placeOf_eq_concat (Path.parts_ne_nil name.some) name.back]
    intro under
    have same := under.eq_of_length (by simp)
    exact other (List.singleton_inj.mp (List.append_cancel_left same)).symm

/-! ## The whole commit -/

theorem makeWay_leaves (sound : w.files.IsSound) (steady : w.files.IsSteady out)
    (above : ∀ l, IsAbove l (w.files.placeOf out) → made l)
    (h : (makeWay out overwrite).outcome w = (result, w')) : Leaves touched made w w' := by
  obtain ⟨files, mark⟩ := makeWay_files h
  refine ⟨mark, ?_⟩
  rw [files]
  exact Evolves.of_extends sound
    ((steady.makeDirectories_extends sound).mono fun l here _ => above l here)

/-- A commit touches the place of the file if it succeeds, and makes directories above it. -/
theorem commit_leaves (sound : w.files.IsSound) (steady : w.files.IsSteady out)
    (plain : Path.slash ∉ w.mark) (other : out.name ≠ stagingStart ++ w.mark)
    (name : Path.IsPlainName out.name)
    (h : (archive.commit out overwrite).outcome w = (result, w')) :
    Leaves (fun l => l = w.files.placeOf out ∧ result = .ok ())
      (fun l => IsAbove l (w.files.placeOf out)) w w' := by
  rw [commit_eq] at h
  rcases bind_ends h with ⟨e, way, rfl⟩ | ⟨_, w₁, way, h⟩
  · exact makeWay_leaves sound steady (fun _ => id) way
  have ready : Leaves (fun l => l = w.files.placeOf out ∧ result = .ok ())
      (fun l => IsAbove l (w.files.placeOf out)) w w₁ :=
    makeWay_leaves sound steady (fun _ => id) way
  have place : w₁.files.placeOf out = w.files.placeOf out := ready.files.placeOf out
  rcases bind_ends h with ⟨e, put, rfl⟩ | ⟨_, w₂, put, told⟩
  · exact ready.trans (putInPlace_leaves ready.files.sound name (by simp) put)
  · obtain ⟨bytes, read⟩ := exists_read_of_putInPlace ready.files.sound
      (ready.mark ▸ plain) (ready.mark ▸ other) name put
    -- Nothing fails behind the move, so the file is there only if the commit succeeds.
    have ends : result = .ok () := by
      unfold tellSize at told
      rw [outcome_bind, outcome_ask, read] at told
      exact (Prod.mk.inj told).1.symm
    have done := ready.trans
      (putInPlace_leaves ready.files.sound name (fun _ => ⟨place, ends⟩) put)
    have looks : LooksAt (Eq out) (tellSize out) := looksAt_tellSize rfl
    exact done.trans (.of_looks looks.looks done.files.sound told)

end ModulePackaging.Archive
