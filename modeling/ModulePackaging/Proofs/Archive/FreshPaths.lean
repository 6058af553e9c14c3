import ModulePackaging.Proofs.Archive.Staging

/-!
# Committing where nothing is

At a path where nothing is, and with room beside it for the staging directory, nothing stands in the
way of a commit but the archive itself. The directories are made, the archive is staged and moved,
and the file holds it as a whole; leave to overwrite makes no difference. An archive that cannot be
laid out as a container is told of, and nothing is at the path afterwards either.

Main statement (`commit_of_fresh`): at a fresh path a commit ends as laying out the archive does.
-/

namespace ModulePackaging

namespace Files.Tree

variable {tree : Tree} {p : Path}

/-- A path that leads to where nothing is. -/
def IsFree (tree : Tree) (p : Path) : Prop :=
  ∃ l, tree.resolve p = .ok l ∧ tree.node? l = none

theorem IsFree.holds (free : tree.IsFree p) : tree.holds p = .ok false := by
  obtain ⟨l, found, nothing⟩ := free
  unfold Tree.holds lookup
  rw [resolve_eq_ok.mp found]
  simp only [nothing]
  rfl

/-- A free path is so in every tree with the same at its place, if no directory is lost. -/
theorem IsFree.of_evolves {tree' : Tree} {touched made : Location → Prop} (free : tree.IsFree p)
    (h : Evolves touched made tree tree') (spared : ¬ touched (tree.placeOf p))
    (old : ¬ made (tree.placeOf p)) : tree'.IsFree p := by
  obtain ⟨l, found, nothing⟩ := free
  obtain rfl := resolve_eq_placeOf found
  exact ⟨_, h.resolve found, (h.kept _ spared old).trans nothing⟩

end Files.Tree

namespace Archive

open Files Action Tree

variable {archive : Archive} {stage out : Path} {overwrite : Bool} {w w₁ : Workspace}

/-! ## Staging -/

/-- With or without leave to overwrite, a file is moved to where nothing is. -/
theorem moveInto_of_none {staged : Path} {source target : Location} {content : Bytes} {mode : Nat}
    (pair : w.files.sourceAndTarget staged out = .ok (source, content, mode, target))
    (nothing : w.files.node? target = none) (overwrite : Bool) :
    ∃ w', (moveInto staged out overwrite).outcome w = (.ok (), w') := by
  obtain ⟨e, ends⟩ := outcome_moveInto staged out overwrite w
  rw [ends]
  cases overwrite with
  | true =>
      have moved := replace_eq_ok.mpr ⟨_, _, _, _, pair, by simp [nothing], rfl⟩
      rw [if_pos rfl, moved]
      exact ⟨_, rfl⟩
  | false =>
      rw [if_neg Bool.false_ne_true, link_of_none pair nothing]
      exact ⟨_, rfl⟩

/-- A file can be written where no directory is, and is there then. -/
theorem writeFile_of_reached {p : Path} (content : Bytes) (sound : w.files.IsSound)
    (found : w.files.resolve p = .ok (w.files.placeOf p))
    (other : w.files.node? (w.files.placeOf p) ≠ some .directory) :
    ∃ w' mode, (Action.writeFile p content).outcome w = (.ok (), w') ∧
      w'.files.node? (w.files.placeOf p) = some (.file content mode) ∧
      Evolves (Eq (w.files.placeOf p)) (fun _ => False) w.files w'.files := by
  obtain ⟨kept, written⟩ :=
    exists_write content defaultMode found other (directory_above sound found)
  have notTop : w.files.placeOf p ≠ [] := by
    intro top
    rw [top] at other
    exact other rfl
  refine ⟨{ w with files := w.files.set (w.files.placeOf p) (.file content kept) }, kept, ?_,
    node?_set_self notTop _, write_evolves sound written rfl⟩
  rw [outcome_writeFile, written]

/-- Staging at a free path ends as laying out the archive does, if there is a free path to stage
at. -/
theorem stageAndMove_of_free (archive : Archive) (sound : w.files.IsSound)
    (free : w.files.IsFree out)
    (room : w.files.IsFree (stage / Path.ofText out.name))
    (apart : w.files.placeOf (stage / Path.ofText out.name) ≠ w.files.placeOf out)
    (overwrite : Bool) :
    ∃ w', (archive.stageAndMove stage out overwrite).outcome w =
      (archive.toBytes.map fun _ => (), w') := by
  obtain ⟨k, toStaged, nothing⟩ := room
  obtain rfl := resolve_eq_placeOf toStaged
  obtain ⟨w₁, _, opened, empty, first⟩ :=
    writeFile_of_reached [] sound toStaged (by simp [nothing])
  rw [stageAndMove_eq, outcome_bind, opened]
  simp only [outcome_bind, outcome_ofExcept]
  cases laid : archive.toBytes with
  | error e => exact ⟨w₁, rfl⟩
  | ok bytes =>
      have place := first.placeOf (stage / Path.ofText out.name)
      obtain ⟨w₂, mode, written, full, second⟩ := writeFile_of_reached bytes
        first.sound (place ▸ first.resolve toStaged) (by rw [place, empty]; simp)
      rw [place] at full second
      -- Neither time of writing touches the path itself.
      have still : w₂.files.IsFree out :=
        free.of_evolves (first.trans second) apart id
      obtain ⟨l, toOut, none⟩ := still
      have pair : w₂.files.sourceAndTarget (stage / Path.ofText out.name) out =
          .ok (w.files.placeOf (stage / Path.ofText out.name), bytes, mode, l) :=
        sourceAndTarget_eq_ok.mpr ⟨(first.trans second).resolve toStaged, toOut, full,
          directory_above second.sound toOut⟩
      obtain ⟨w₃, moved⟩ := moveInto_of_none pair none overwrite
      simp only [mapError_ok, written, moved]
      exact ⟨w₃, rfl⟩

/-! ## Fresh paths -/

/-- A path at which a file can be new: when the directories above it are made, nothing is there, and
nothing is in the place of its staging directory, in which its name can be used too. The name and
the mark are such that the stage is beside the file and is not the file. -/
structure IsFresh (out : Path) (w : Workspace) : Prop where
  sound : w.files.IsSound
  name : Path.IsPlainName out.name
  mark : Path.slash ∉ w.mark
  other : out.name ≠ stagingStart ++ w.mark
  made : (w.files.makeDirectories out.parent).2 = none
  free : (w.files.makeDirectories out.parent).1.IsFree out
  stage : (w.files.makeDirectories out.parent).1.IsFree (stageOf out w.mark)
  staged : IsNamed (stageOf out w.mark / Path.ofText out.name)

/-- Nothing stands in the way at a fresh path. -/
theorem makeWay_of_fresh (fresh : IsFresh out w) (overwrite : Bool) :
    (makeWay out overwrite).outcome w =
      (.ok (), { w with files := (w.files.makeDirectories out.parent).1 }) := by
  rw [makeWay_eq, outcome_bind, outcome_makeDirectories, fresh.made]
  simp only
  unfold refuseTaken
  cases overwrite with
  | true => rfl
  | false =>
      simp only [Bool.not_false, if_true]
      rw [outcome_bind, outcome_ask, fresh.free.holds]
      rfl

/-- A new stage is empty: a name that can be used elsewhere can be used in it. -/
theorem isFree_staged {tree : Tree} {mark : Text} {s : Location} (sound : tree.IsSound)
    (name : Path.IsPlainName out.name) (free : tree.IsFree out)
    (found : tree.resolve (stageOf out mark) = .ok s) (nothing : tree.node? s = none)
    (named : IsNamed (stageOf out mark / Path.ofText out.name)) :
    (tree.set s .directory).IsFree (stageOf out mark / Path.ofText out.name) := by
  have notTop := ne_nil_of_none nothing
  have extends' := makeDirectory_extends (makeDirectory_of_none sound found nothing)
  have toStage := (locate_eq_ok.mp (resolve_eq_ok.mp
    (resolve_of_directories extends'.home (fun _ => extends'.directories) found))).2
  -- The name is not too long, as it ends the path itself.
  obtain ⟨l, toOut, _⟩ := free
  have toName := (locate_eq_ok.mp (resolve_eq_ok.mp toOut)).2
  rw [Path.parts_eq_concat (Path.parts_ne_nil name.some)] at toName
  obtain ⟨_, _, last⟩ := follow_append_ok.mp toName
  obtain ⟨_, short, _⟩ := follow_cons_ok.mp last
  refine ⟨s ++ [out.name], resolve_eq_ok.mpr (locate_eq_ok.mpr ⟨named, ?_⟩), ?_⟩
  · rw [Path.join_of_plain _ name]
    refine follow_append_ok.mpr ⟨s, toStage, follow_cons_ok.mpr
      ⟨node?_set_self notTop _, short, ?_⟩⟩
    rw [if_neg name.back]
    rfl
  · rw [node?_set_of_ne (by simp)]
    exact sound.none_of_prefix (by simp [nothing]) (List.prefix_append _ _) (by simp)

/-- A file is not where it is staged. -/
theorem placeOf_staged_ne {mark : Text} (tree : Tree) (plain : Path.slash ∉ mark)
    (name : Path.IsPlainName out.name) :
    tree.placeOf (stageOf out mark / Path.ofText out.name) ≠ tree.placeOf out := by
  rw [placeOf_join name, stageOf, placeOf_join (isPlainName_stage plain),
    placeOf_eq_concat (Path.parts_ne_nil name.some) name.back]
  intro same
  have size := congrArg List.length same
  simp at size

/-- Putting in place at a fresh path, after the directories are made, ends as laying out the archive
does. -/
theorem putInPlace_of_fresh (archive : Archive) (fresh : IsFresh out w) (overwrite : Bool) :
    ∃ w', (archive.putInPlace out overwrite).outcome
      { w with files := (w.files.makeDirectories out.parent).1 } =
        (archive.toBytes.map fun _ => (), w') := by
  have sound := (makeDirectories_extends w.files out.parent).sound fresh.sound
  obtain ⟨s, found, nothing⟩ := fresh.stage
  have made := makeDirectory_of_none sound found nothing
  have extends' := makeDirectory_extends made
  have kept : Evolves (fun _ => False) (Eq s) (w.files.makeDirectories out.parent).1
      ((w.files.makeDirectories out.parent).1.set s .directory) :=
    Evolves.of_extends sound
      (extends'.mono fun l here _ => (resolve_eq_placeOf found).trans here.symm)
  -- The stage is beside the path, which therefore stays free.
  have apart : ¬ s = (w.files.makeDirectories out.parent).1.placeOf out := by
    rw [resolve_eq_placeOf found, stageOf, placeOf_join (isPlainName_stage fresh.mark),
      placeOf_eq_concat (Path.parts_ne_nil fresh.name.some) fresh.name.back]
    intro same
    exact fresh.other (List.singleton_inj.mp (List.append_cancel_left same)).symm
  obtain ⟨w', ended⟩ := stageAndMove_of_free archive
    (w := { w with files := (w.files.makeDirectories out.parent).1.set s .directory })
    kept.sound (fresh.free.of_evolves kept id apart)
    (isFree_staged sound fresh.name fresh.free found nothing fresh.staged)
    (placeOf_staged_ne _ fresh.mark fresh.name) overwrite
  exact ⟨_, putInPlace_of_made sound made ended⟩

/-- At a fresh path a commit ends as laying out the archive does, whether or not it may overwrite.
Either the file holds the archive as a whole, or nothing is there. -/
theorem commit_of_fresh (fresh : IsFresh out w) (archive : Archive) (overwrite : Bool) :
    ∃ w', (archive.commit out overwrite).outcome w = (archive.toBytes.map fun _ => (), w') ∧
      match archive.toBytes with
      | .ok bytes => w'.files.read out = .ok bytes
      | .error _ => w'.files.holds out = .ok false := by
  have sound := (makeDirectories_extends w.files out.parent).sound fresh.sound
  obtain ⟨w₁, put⟩ := putInPlace_of_fresh archive fresh overwrite
  have way := makeWay_of_fresh fresh overwrite
  cases laid : archive.toBytes with
  | error e =>
      -- What was staged is gone with the stage, and nothing was moved.
      rw [laid] at put
      have left : Leaves (fun _ => False) (fun _ => False) _ w₁ :=
        putInPlace_leaves sound fresh.name (by simp [Except.map]) put
      refine ⟨w₁, ?_, (fresh.free.of_evolves left.files id id).holds⟩
      rw [commit_eq, outcome_bind, way]
      simp only
      rw [outcome_bind, put]
      rfl
  | ok bytes =>
      rw [laid, Except.map] at put
      obtain ⟨content, read⟩ := exists_read_of_putInPlace
        (w := { w with files := (w.files.makeDirectories out.parent).1 })
        sound fresh.mark fresh.other fresh.name put
      have told : ∃ w', (tellSize out).outcome w₁ = (.ok (), w') := by
        unfold tellSize
        rw [outcome_bind, outcome_ask, read]
        exact ⟨_, rfl⟩
      obtain ⟨w', told⟩ := told
      have done : (archive.commit out overwrite).outcome w = (.ok (), w') := by
        rw [commit_eq, outcome_bind, way]
        simp only
        rw [outcome_bind, put]
        exact told
      obtain ⟨bytes', same, whole⟩ := read_of_commit done
      obtain rfl := Except.ok.inj (laid.symm.trans same)
      exact ⟨w', done, whole⟩

/-- An archive that is the same file at whatever fresh path it is committed to. -/
def IsCommittedAs (archive : Archive) (bytes : Bytes) : Prop :=
  ∀ out w overwrite, IsFresh out w → ∃ w', (archive.commit out overwrite).outcome w = (.ok (), w') ∧
    w'.files.read out = .ok bytes

/-- An archive that cannot be committed to any fresh path, and leaves nothing there. -/
def IsNeverCommitted (archive : Archive) (e : Fault) : Prop :=
  ∀ out w overwrite, IsFresh out w → ∃ w', (archive.commit out overwrite).outcome w =
    (.error e, w') ∧ w'.files.holds out = .ok false

theorem isCommittedAs_of_toBytes {bytes : Bytes} (laid : archive.toBytes = .ok bytes) :
    archive.IsCommittedAs bytes := by
  intro out w overwrite fresh
  obtain ⟨w', ended, whole⟩ := commit_of_fresh fresh archive overwrite
  rw [laid] at ended whole
  exact ⟨w', ended, whole⟩

theorem isNeverCommitted_of_toBytes {e : Fault} (failed : archive.toBytes = .error e) :
    archive.IsNeverCommitted e := by
  intro out w overwrite fresh
  obtain ⟨w', ended, nothing⟩ := commit_of_fresh fresh archive overwrite
  rw [failed] at ended nothing
  exact ⟨w', ended, nothing⟩

end Archive

end ModulePackaging
