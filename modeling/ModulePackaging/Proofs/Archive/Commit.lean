import ModulePackaging.Archive.Commit
import ModulePackaging.Proofs.Files.Company

/-!
# Committing is all or nothing

A commit that succeeds leaves the whole archive in the file. One that fails leaves all that was
there as it was, and beside that only directories above the place of the file; the staging directory
is gone in either case.
-/

namespace ModulePackaging.Archive

open Files Action

variable {archive : Archive} {stage out : Path} {overwrite : Bool} {w w' : Workspace}

/-- The last operation leaves the result of the first one. -/
theorem outcome_finishing {α : Type} (body : Action α) (last : Action Unit) (w : Workspace) :
    (finishing body last).outcome w =
      ((body.outcome w).1, (last.outcome (body.outcome w).2).2) := rfl

/-! ## A commit that succeeds -/

/-- Moving the staged file into place: over whatever is there, or where nothing is. -/
def moveInto (staged out : Path) (overwrite : Bool) : Action Unit :=
  if overwrite then Action.change (·.replace staged out)
  else do
    match (← get).files.link staged out with
    | .ok files => modify fun w => { w with files }
    | .error (.refusedPair .taken _ _) => throw (collision out)
    | .error e => throw (.files e)

/-- What is staged is written, laid out, written again and moved. -/
theorem stageAndMove_eq (archive : Archive) (stage out : Path) (overwrite : Bool) :
    archive.stageAndMove stage out overwrite = (do
      Action.writeFile (stage / Path.ofText out.name) []
      let bytes ← Action.ofExcept id archive.toBytes
      Action.writeFile (stage / Path.ofText out.name) bytes
      moveInto (stage / Path.ofText out.name) out overwrite) := by
  unfold stageAndMove moveInto
  congr 1

/-- Without leave to overwrite, moving tells a file that is there as a collision. -/
theorem outcome_moveInto_link (staged out : Path) (w : Workspace) :
    (moveInto staged out false).outcome w =
      match w.files.link staged out with
      | .ok files => (.ok (), { w with files })
      | .error (.refusedPair .taken _ _) => (.error (collision out), w)
      | .error e => (.error (.files e), w) := by
  unfold moveInto
  simp only [Bool.false_eq_true, if_false]
  rw [outcome_bind, outcome_get]
  simp only
  cases w.files.link staged out with
  | ok files => rfl
  | error e =>
      cases e with
      | refusedPair errno source target => cases errno <;> rfl
      | _ => rfl

theorem outcome_moveInto (staged out : Path) (overwrite : Bool) (w : Workspace) :
    ∃ e, (moveInto staged out overwrite).outcome w =
      match (if overwrite then w.files.replace staged out else w.files.link staged out) with
      | .ok files => (.ok (), { w with files })
      | .error _ => (.error e, w) := by
  cases overwrite with
  | true =>
      unfold moveInto
      simp only [if_true, outcome_change]
      cases w.files.replace staged out with
      | ok files => exact ⟨.badValue [], rfl⟩
      | error e => exact ⟨.files e, rfl⟩
  | false =>
      rw [outcome_moveInto_link]
      simp only [Bool.false_eq_true, if_false]
      cases w.files.link staged out with
      | ok files => exact ⟨.badValue [], rfl⟩
      | error e =>
          simp only
          split
          · exact absurd ‹_› (by simp)
          · exact ⟨collision out, rfl⟩
          · exact ⟨_, rfl⟩

/-- What is moved into place is what was staged. -/
theorem moveInto_gives {staged : Path} (h : (moveInto staged out overwrite).outcome w = (.ok (), w')) :
    ∃ source content mode target,
      w.files.sourceAndTarget staged out = .ok (source, content, mode, target) ∧
        w'.files.home = w.files.home ∧ w'.files.node? target = some (.file content mode) := by
  obtain ⟨e, ends⟩ := outcome_moveInto staged out overwrite w
  rw [ends] at h
  split at h
  · rename_i files moved
    cases h
    cases overwrite with
    | true =>
        rw [if_pos rfl] at moved
        obtain ⟨source, content, mode, target, found, other, rfl⟩ := Tree.replace_eq_ok.mp moved
        exact ⟨source, content, mode, target, found, rfl,
          Tree.node?_set_self (Tree.ne_nil_of_not_directory other) _⟩
    | false =>
        rw [if_neg Bool.false_ne_true] at moved
        obtain ⟨source, content, mode, target, found, nothing, rfl⟩ := Tree.link_eq_ok moved
        exact ⟨source, content, mode, target, found, rfl,
          Tree.node?_set_self (Tree.ne_nil_of_none nothing) _⟩
  · exact absurd h (by simp)

/-- Staging and moving that succeeds puts the whole archive at the place of the file. -/
theorem stageAndMove_gives (h : (archive.stageAndMove stage out overwrite).outcome w = (.ok (), w')) :
    ∃ bytes mode, archive.toBytes = .ok bytes ∧ w'.files.home = w.files.home ∧
      w'.files.node? (w.files.placeOf out) = some (.file bytes mode) ∧
        ∃ tree : Tree, tree.home = w.files.home ∧ tree.resolve out = .ok (w.files.placeOf out) := by
  rw [stageAndMove_eq] at h
  obtain ⟨_, w₁, first, h⟩ := bind_gives.mp h
  obtain ⟨bytes, w₂, laid, h⟩ := bind_gives.mp h
  obtain ⟨_, w₃, second, moved⟩ := bind_gives.mp h
  rw [outcome_ofExcept] at laid
  obtain ⟨made, rfl⟩ := Prod.mk.inj laid
  have written : archive.toBytes = .ok bytes := mapError_eq_ok.mp made
  obtain ⟨l, _, _, firstTree, _⟩ := Tree.write_eq_ok (writeFile_gives first).1
  obtain ⟨staged, kept, found, secondTree, notTop, _⟩ := Tree.write_eq_ok (writeFile_gives second).1
  obtain ⟨source, content, mode, target, pair, home, there⟩ := moveInto_gives moved
  obtain ⟨fromStage, toOut, file, _⟩ := Tree.sourceAndTarget_eq_ok.mp pair
  have homes : w₃.files.home = w.files.home := by
    rw [secondTree, firstTree]
    rfl
  -- The staged path leads to the same location before and after it is written.
  have sameStage : source = staged := by
    rw [Tree.resolve_eq_placeOf fromStage, Tree.resolve_eq_placeOf found, secondTree]
    rfl
  have sameOut : target = w.files.placeOf out := by
    rw [Tree.resolve_eq_placeOf toOut, Tree.placeOf, Tree.placeOf, Tree.startOf, Tree.startOf, homes]
  rw [sameStage, secondTree, Tree.node?_set_self notTop] at file
  cases file
  rw [sameOut] at there toOut
  exact ⟨bytes, kept, written, home.trans homes, there, w₃.files, homes, toOut⟩

/-- What stands in front of a commit: the directories are made and, without leave to overwrite, there
must not be anything already. -/
def makeWay (out : Path) (overwrite : Bool) : Action Unit := do
  Action.makeDirectories out.parent
  if !overwrite then
    if ← Action.ask (·.holds out) then throw (collision out)

/-- The staging directory of a commit. -/
def stageOf (out : Path) (mark : Text) : Path := out.parent / Path.ofText (stagingStart ++ mark)

/-- Makes the staging directory, does the work in it and takes it away. -/
def putInPlace (archive : Archive) (out : Path) (overwrite : Bool) : Action Unit := do
  let stage := stageOf out (← get).mark
  Action.change (·.makeDirectory stage)
  finishing (archive.stageAndMove stage out overwrite) (Action.change (·.remove stage))

/-- Tells how large the file is. -/
def tellSize (out : Path) : Action Unit := do
  let bytes ← Action.ask (·.read out)
  Action.note (commitRecord out bytes.length)

theorem commit_eq (archive : Archive) (out : Path) (overwrite : Bool) :
    archive.commit out overwrite = (do
      makeWay out overwrite
      archive.putInPlace out overwrite
      tellSize out) := by
  unfold commit makeWay putInPlace tellSize stageOf
  cases overwrite with
  | true => simp only [Bool.not_true, Bool.false_eq_true, if_false, bind_assoc, pure_bind]
  | false =>
      simp only [Bool.not_false, if_true, bind_assoc]
      congr 1
      funext _
      congr 1
      funext taken
      cases taken with
      | false => simp only [Bool.false_eq_true, if_false, pure_bind]
      | true => simp only [if_true]

/-- Without leave to overwrite, there must not be anything at the path. -/
def refuseTaken (out : Path) (overwrite : Bool) : Action Unit := do
  if !overwrite then
    if ← Action.ask (·.holds out) then throw (collision out)

theorem makeWay_eq (out : Path) (overwrite : Bool) : makeWay out overwrite = (do
    Action.makeDirectories out.parent
    refuseTaken out overwrite) := rfl

theorem looksAt_refuseTaken {paths : Path → Prop} (here : paths out) (overwrite : Bool) :
    LooksAt paths (refuseTaken out overwrite) := by
  refine LooksAt.ite ?_ (LooksAt.pure _)
  exact (LooksAt.holds here).bind fun taken => LooksAt.ite (LooksAt.throw _) (LooksAt.pure _)

theorem looks_refuseTaken (out : Path) (overwrite : Bool) : Looks (refuseTaken out overwrite) := by
  have looks : LooksAt (Eq out) (refuseTaken out overwrite) := looksAt_refuseTaken rfl overwrite
  exact looks.looks

theorem looksAt_tellSize {paths : Path → Prop} (here : paths out) : LooksAt paths (tellSize out) :=
  (LooksAt.read here).bind fun _ => LooksAt.note _

/-- Making way only makes directories. -/
theorem makeWay_files {result : Except Fault Unit}
    (h : (makeWay out overwrite).outcome w = (result, w')) :
    w'.files = (w.files.makeDirectories out.parent).1 ∧ w'.mark = w.mark := by
  rw [makeWay_eq, outcome_bind, outcome_makeDirectories] at h
  cases refusal : (w.files.makeDirectories out.parent).2 with
  | some e =>
      rw [refusal] at h
      cases h
      exact ⟨rfl, rfl⟩
  | none =>
      rw [refusal] at h
      exact (looks_refuseTaken out overwrite).outcome h

/-- When the way is made, the parent of the file is a directory. -/
theorem parent_of_makeWay (h : (makeWay out overwrite).outcome w = (.ok (), w')) :
    ∃ l, w'.files.resolve out.parent = .ok l ∧ w'.files.node? l = some .directory := by
  rw [makeWay_eq] at h
  obtain ⟨_, w₁, made, h⟩ := bind_gives.mp h
  rw [((looks_refuseTaken out overwrite).outcome h).1]
  exact parent_of_makeDirectories made

/-- Putting in place ends before the stage is made, or as the work in the stage does. -/
theorem putInPlace_cases {result : Except Fault Unit}
    (h : (archive.putInPlace out overwrite).outcome w = (result, w')) :
    ((∃ e, result = .error e) ∧ w' = w) ∨
      ∃ files w₁, w.files.makeDirectory (stageOf out w.mark) = .ok files ∧
        (archive.stageAndMove (stageOf out w.mark) out overwrite).outcome { w with files } =
          (result, w₁) ∧
        w' = ((Action.change (·.remove (stageOf out w.mark))).outcome w₁).2 := by
  unfold putInPlace at h
  rw [outcome_bind, outcome_get] at h
  simp only at h
  rw [outcome_bind, outcome_change] at h
  cases made : w.files.makeDirectory (stageOf out w.mark) with
  | error e =>
      rw [made] at h
      cases h
      exact .inl ⟨⟨_, rfl⟩, rfl⟩
  | ok files =>
      rw [made] at h
      simp only [outcome_finishing] at h
      rcases ended : (archive.stageAndMove (stageOf out w.mark) out overwrite).outcome
        { w with files } with ⟨last, w₁⟩
      rw [ended] at h
      obtain ⟨rfl, rfl⟩ := Prod.mk.inj h
      exact .inr ⟨files, w₁, rfl, ended, rfl⟩

/-- Whether or not the stage can be taken away, what is at a location afterwards was there. -/
theorem node?_of_removed {stage : Path} {l : Location} {node : Node}
    (there : ((Action.change (·.remove stage)).outcome w).2.files.node? l = some node) :
    l = [] ∨ w.files.node? l = some node := by
  rw [outcome_change] at there
  cases gone : w.files.remove stage with
  | error e =>
      rw [gone] at there
      exact .inr there
  | ok files =>
      rw [gone] at there
      obtain ⟨s, _, _, rfl⟩ := Tree.remove_eq_ok.mp gone
      by_cases top : l = []
      · exact .inl top
      · right
        by_cases inside : s <+: l
        · rw [Tree.node?_erase_of_below inside top] at there
          exact absurd there (by simp)
        · rwa [Tree.node?_erase_of_not_below inside] at there

theorem home_of_removed (stage : Path) (w : Workspace) :
    ((Action.change (·.remove stage)).outcome w).2.files.home = w.files.home := by
  rw [outcome_change]
  cases gone : w.files.remove stage with
  | error e => rfl
  | ok files =>
      obtain ⟨s, _, _, rfl⟩ := Tree.remove_eq_ok.mp gone
      rfl

/-- A commit that succeeds leaves the whole archive in the file. -/
theorem read_of_commit (h : (archive.commit out overwrite).outcome w = (.ok (), w')) :
    ∃ bytes, archive.toBytes = .ok bytes ∧ w'.files.read out = .ok bytes := by
  rw [commit_eq] at h
  obtain ⟨_, w₁, _, h⟩ := bind_gives.mp h
  obtain ⟨_, w₂, put, told⟩ := bind_gives.mp h
  obtain ⟨content, w₃, asked, noted⟩ := bind_gives.mp told
  rw [outcome_ask] at asked
  obtain ⟨reading, rfl⟩ := Prod.mk.inj asked
  have read : w₂.files.read out = .ok content := mapError_eq_ok.mp reading
  obtain ⟨l, mode, found, there⟩ := Tree.read_eq_ok.mp read
  rcases putInPlace_cases put with ⟨⟨e, failed⟩, _⟩ | ⟨files, w₄, _, staged, rfl⟩
  · exact absurd failed (by simp)
  · obtain ⟨bytes, mode', written, home, moved, _⟩ := stageAndMove_gives staged
    have place : l = files.placeOf out := by
      rw [Tree.resolve_eq_placeOf found, Tree.placeOf, Tree.placeOf, Tree.startOf, Tree.startOf,
        home_of_removed, home]
    have before : w₄.files.node? l = some (.file content mode) := by
      rcases node?_of_removed there with rfl | before
      · exact absurd there (by simp)
      · exact before
    rw [place, moved] at before
    cases before
    refine ⟨_, written, ?_⟩
    rw [← (Prod.mk.inj noted).2]
    exact read

end ModulePackaging.Archive
