import ModulePackaging.Proofs.Agreement
import ModulePackaging.Proofs.Build.Stages
import ModulePackaging.Proofs.Files.Below
import ModulePackaging.Proofs.Project.Loading

/-!
# Projects with absolute paths

A project that is loaded from the absolute path of its source is the one that is loaded from the
source as it is named, with all of its paths made absolute. Its resources are the same.
-/

namespace ModulePackaging

open Files Files.Tree Action

variable {home : Location} {dir source : Path}

/-- A resource whose path is made absolute. -/
def ResourceSpec.absolute (home : Location) (spec : ResourceSpec) : ResourceSpec :=
  { spec with source := spec.source.absolute home }

/-- Files that a program works in from a home directory. -/
structure Files.Tree.StandsAt (home : Location) (tree : Tree) : Prop where
  home : tree.home = home
  rooted : tree.IsRooted

namespace Project

variable {key t : Text} {members : Members}

/-- A project whose paths are made absolute. -/
def absolute (home : Location) (project : Project) : Project where
  sourceDir := project.sourceDir.absolute home
  package := project.package
  artifact := project.artifact.map (·.absolute home)
  resources := project.resources.map (·.absolute home)
  command := project.command

/-! ## What the value of a project file holds -/

theorem inside_absolute : inside (dir.absolute home) key t =
    (inside dir key t).map (·.absolute home) := by
  unfold inside
  simp only
  split
  · rfl
  · exact congrArg Except.ok (Path.absolute_join _ _).symm

theorem artifactOf_absolute : artifactOf (dir.absolute home) members =
    (artifactOf dir members).map (Option.map (·.absolute home)) := by
  unfold artifactOf
  split
  · rfl
  · split
    · rfl
    · rw [inside_absolute]
      cases inside dir "artifact" _ <;> rfl
  · rfl

theorem resourceOf_absolute (index : Nat) (value : Json) :
    resourceOf (dir.absolute home) index value =
      (resourceOf dir index value).map (·.absolute home) := by
  unfold resourceOf
  split
  · rw [inside_absolute]
    cases inside dir "resources" _ <;> rfl
  · split
    · rw [inside_absolute]
      cases inside dir "resources" _ <;> rfl
    · rfl
  · rfl

theorem resourcesOf_absolute : resourcesOf (dir.absolute home) members =
    (resourcesOf dir members).map (List.map (·.absolute home)) := by
  unfold resourcesOf
  split
  · rw [← mapM_map_values]
    simp only [resourceOf_absolute]
  · rfl

/-- The same value holds, for the absolute path of a directory, the project with absolute paths. -/
theorem ofJson_absolute (dir : Path) (value : Json) : ofJson (dir.absolute home) value =
    (ofJson dir value).map (·.absolute home) := by
  unfold ofJson
  split
  · rename_i members
    simp only
    split
    · rfl
    · split
      · rfl
      · split
        · rw [artifactOf_absolute, resourcesOf_absolute]
          cases artifactOf dir members with
          | error e => rfl
          | ok artifact =>
              cases resourcesOf dir members with
              | error e => rfl
              | ok resources => cases commandOf members <;> rfl
        · rfl
  · rfl

theorem ofBytes_absolute (dir : Path) (bytes : Bytes) : ofBytes (dir.absolute home) bytes =
    (ofBytes dir bytes).map (·.absolute home) := by
  unfold ofBytes
  cases textOf bytes with
  | error e => rfl
  | ok text =>
      simp only [mapError_ok, bind, Except.bind]
      cases (Json.read text).mapError readFault with
      | error e => rfl
      | ok value =>
          simp only [ofJson_absolute]
          cases ofJson dir value <;> rfl

/-- A project is in the directory that it was read for, and its paths are what its file names. -/
theorem parts_of_ofBytes {bytes : Bytes} {project : Project}
    (h : ofBytes dir bytes = .ok project) :
    project.sourceDir = dir ∧ ∃ members, artifactOf dir members = .ok project.artifact ∧
      resourcesOf dir members = .ok project.resources := by
  unfold ofBytes at h
  obtain ⟨_, _, h⟩ := bind_eq_ok.mp h
  obtain ⟨_, _, h⟩ := bind_eq_ok.mp h
  have h := mapError_eq_ok.mp h
  unfold ofJson at h
  split at h
  · obtain ⟨_, h⟩ := guard_eq_ok.mp h
    obtain ⟨_, h⟩ := guard_eq_ok.mp h
    split at h
    · obtain ⟨_, artifact, h⟩ := bind_eq_ok.mp h
      obtain ⟨_, resources, h⟩ := bind_eq_ok.mp h
      obtain ⟨_, _, h⟩ := bind_eq_ok.mp h
      rw [← Except.ok.inj h]
      exact ⟨rfl, _, artifact, resources⟩
    · exact absurd h throw_ne_ok
  · exact absurd h (by simp)

/-- A path that is accepted is below the directory, whatever separates its names. -/
theorem isBelow_of_inside {p : Path} (h : inside dir key t = .ok p) : dir.IsBelow p := by
  unfold inside at h
  simp only at h
  split at h
  · exact absurd h (by simp)
  · rename_i within
    obtain ⟨relative, forward⟩ := Bool.or_eq_false_iff.mp (eq_false_of_ne_true within)
    rw [← Except.ok.inj h]
    refine Path.isBelow_join dir relative fun name member => ?_
    refine Path.isPlainName_of_mem_parts member ?_
    rintro rfl
    exact absurd (List.contains_iff_mem.mpr member) (ne_true_of_eq_false forward)

/-- The artifact of a project is below the directory that the project was read for. -/
theorem artifact_of_ofBytes {bytes : Bytes} {project : Project} {artifact : Path}
    (h : ofBytes dir bytes = .ok project) (named : project.artifact = some artifact) :
    dir.IsBelow artifact := by
  obtain ⟨_, members, read, _⟩ := parts_of_ofBytes h
  rw [named] at read
  unfold artifactOf at read
  split at read
  · exact absurd read (by simp)
  · split at read
    · exact absurd read (by simp)
    · generalize within : inside dir "artifact" _ = placed at read
      cases placed with
      | error e => exact absurd read (by simp [Except.map])
      | ok p =>
          obtain rfl := Option.some.inj (Except.ok.inj read)
          exact isBelow_of_inside within
  · exact absurd read (by simp)

/-! ## Loading -/

theorem fileAt_of_directory {tree : Tree} (h : tree.isDirectory source = .ok true) :
    fileAt tree source = source / Path.ofText filename := by
  rw [fileAt, h]

theorem fileAt_of_other {tree : Tree} (h : tree.isDirectory source ≠ .ok true) :
    fileAt tree source = source := by
  unfold fileAt
  split
  · exact absurd ‹_› h
  · rfl

/-- The project file of the absolute path of a source is that of the source. -/
theorem fileAt_absolute {tree : Tree} (stands : tree.StandsAt home)
    (named : IsNameable home source) :
    fileAt tree (source.absolute home) = (fileAt tree source).absolute home := by
  obtain ⟨rfl, rooted⟩ := stands
  have same := isDirectory_absolute rooted named
  by_cases directory : tree.isDirectory source = .ok true
  · rw [fileAt_of_directory directory, fileAt_of_directory (same.mp directory),
      Path.absolute_join]
  · rw [fileAt_of_other directory, fileAt_of_other (mt same.mpr directory)]

/-- A project file that can be read has a name, so its directory is made absolute as it is. -/
theorem parent_fileAt_absolute {tree : Tree} {bytes : Bytes} (stands : tree.StandsAt home)
    (readable : tree.read (fileAt tree source) = .ok bytes) :
    (fileAt tree source).parent.absolute home = ((fileAt tree source).absolute home).parent := by
  obtain ⟨rfl, rooted⟩ := stands
  by_cases names : (fileAt tree source).parts = []
  · cases absolute : (fileAt tree source).isAbsolute with
    | true =>
        rw [Path.absolute_of_isAbsolute absolute,
          Path.absolute_of_isAbsolute (p := (fileAt tree source).parent) absolute]
    | false =>
        -- The path without names is the home, where a directory is and no file.
        obtain ⟨l, mode, found, there⟩ := read_eq_ok.mp readable
        have place := resolve_eq_placeOf found
        rw [placeOf, startOf, absolute, if_neg Bool.false_ne_true, names, walk] at place
        rw [place] at there
        have directory := (rooted.leads (by simp [there])).1
        rw [there] at directory
        exact absurd directory (by simp)
  · exact Path.absolute_parent names

/-- A project that is loaded was in a file that can be read. -/
theorem load_gives {w w' : Workspace} {project : Project}
    (h : (load source).outcome w = (.ok project, w')) :
    ∃ bytes, w.files.read (fileAt w.files source) = .ok bytes ∧
      ofBytes (fileAt w.files source).parent bytes = .ok project := by
  have readable : ∃ bytes, w.files.read (fileAt w.files source) = .ok bytes := by
    unfold load at h
    obtain ⟨directory, w₁, asked, h⟩ := bind_gives.mp h
    rw [outcome_ask] at asked
    obtain ⟨answer, rfl⟩ := Prod.mk.inj asked
    have answer := mapError_eq_ok.mp answer
    have file : (if directory = true then source / Path.ofText filename else source) =
        fileAt w.files source := by
      rw [fileAt, answer]
      cases directory <;> rfl
    simp only [file] at h
    obtain ⟨there, w₂, held, h⟩ := bind_gives.mp h
    rw [outcome_ask] at held
    obtain ⟨_, rfl⟩ := Prod.mk.inj held
    cases there with
    | false => exact absurd h (by simp)
    | true =>
        simp only [Bool.not_true, Bool.false_eq_true, if_false] at h
        obtain ⟨text, w₃, read, _⟩ := bind_gives.mp h
        obtain ⟨bytes, w₄, given, _⟩ := bind_gives.mp read
        rw [outcome_ask] at given
        exact ⟨bytes, mapError_eq_ok.mp (Prod.mk.inj given).1⟩
  obtain ⟨bytes, read⟩ := readable
  rw [outcome_load read] at h
  exact ⟨bytes, read, (Prod.mk.inj h).1⟩

theorem looks_load (source : Path) : Looks (load source) :=
  LooksAt.anywhere (looksAt_load trivial trivial)

/-- Loading from a source and from its absolute path agree, up to the paths of the project. -/
theorem load_agree (named : IsNameable home source)
    (inside : IsNameable home (source / Path.ofText filename)) :
    Agree (StandsAt home) (StandsAt home) (fun _ _ => True)
      (fun project other => other = project.absolute home)
      (load source) (load (source.absolute home)) := by
  intro u v stands files mark
  have kept := (looks_load source).keeps u
  have kept' := (looks_load (source.absolute home)).keeps v
  refine ⟨?_, fun _ _ => kept.1.symm ▸ stands, ?_, ?_⟩
  · have file := fileAt_absolute stands named
    have fileNamed : IsNameable home (fileAt u.files source) := by
      by_cases directory : u.files.isDirectory source = .ok true
      · rwa [fileAt_of_directory directory]
      · rwa [fileAt_of_other directory]
    have same : ∀ bytes, u.files.read (fileAt u.files source) = .ok bytes ↔
        v.files.read (fileAt v.files (source.absolute home)) = .ok bytes := by
      intro bytes
      obtain ⟨rfl, rooted⟩ := stands
      rw [files, file]
      exact read_absolute rooted fileNamed
    by_cases readable : ∃ bytes, u.files.read (fileAt u.files source) = .ok bytes
    · obtain ⟨bytes, read⟩ := readable
      rw [outcome_load read, outcome_load ((same bytes).mp read), files, file,
        ← parent_fileAt_absolute stands read, ofBytes_absolute]
      cases ofBytes (fileAt u.files source).parent bytes with
      | error e => exact .error trivial
      | ok project => exact .ok rfl
    · rcases here : (load source).outcome u with ⟨result, u'⟩
      rcases there : (load (source.absolute home)).outcome v with ⟨result', v'⟩
      cases result with
      | ok project =>
          obtain ⟨bytes, read, _⟩ := load_gives here
          exact absurd ⟨bytes, read⟩ readable
      | error e =>
          cases result' with
          | ok project =>
              obtain ⟨bytes, read, _⟩ := load_gives there
              exact absurd ⟨bytes, (same bytes).mpr read⟩ readable
          | error e' => exact .error trivial
  · rw [kept.1, kept'.1, files]
  · rw [kept.2, kept'.2, mark]

end Project

/-! ## Looking at files -/

theorem Action.Agree.isFile {α β : Type} {after : Tree → Prop} {R : α → β → Prop} {p : Path}
    {x : Action α} {y : Action β} {e e' : Fault} (named : IsNameable home p)
    (onward : Agree (StandsAt home) after (fun _ _ => True) R x y) :
    Agree (StandsAt home) after (fun _ _ => True) R
      (Action.ask (·.isFile p) >>= fun found => if found then x else MonadExcept.throw e)
      (Action.ask (·.isFile (p.absolute home)) >>=
        fun found => if found then y else MonadExcept.throw e') := by
  refine Agree.check (fun t stands => ?_) onward
  obtain ⟨rfl, rooted⟩ := stands
  exact isFile_absolute rooted named

theorem Action.Agree.read {p : Path} (named : IsNameable home p) :
    Agree (StandsAt home) (StandsAt home) (fun _ _ => True) Eq
      (Action.ask (·.read p)) (Action.ask (·.read (p.absolute home))) := by
  refine Agree.ask fun t stands content => ?_
  obtain ⟨rfl, rooted⟩ := stands
  exact read_absolute rooted named

/-- The resources of a project are the same with absolute paths. -/
theorem Project.readResources_agree {project : Project}
    (named : ∀ spec ∈ project.resources, IsNameable home spec.source) :
    Agree (StandsAt home) (StandsAt home) (fun _ _ => True) Eq
      project.readResources (project.absolute home).readResources := by
  refine Agree.mapM fun spec member => ?_
  refine Agree.isFile (named spec member) ?_
  refine (Agree.read (named spec member)).bind fun content content' same => ?_
  exact Agree.pure (by rw [same]; rfl)

end ModulePackaging
