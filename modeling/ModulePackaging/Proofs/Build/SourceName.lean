import ModulePackaging.Proofs.Archive.Unlogged
import ModulePackaging.Proofs.Build.Alongside
import ModulePackaging.Proofs.Project.Absolute

/-!
# How the source of a build is named

A build of a relative path and one of its absolute path go through the stages side by side, on the
same files. They look at the same files in each stage but one: a toolchain that the project names
has the source directory in the path of its artifact already, and joins it to the source directory
again. That makes no difference to an absolute path, and doubles a relative one.
-/

namespace ModulePackaging

open Files Files.Tree Action

variable {α β : Type} {home : Location} {machine : Machine} {matrix : Matrix}
  {request : BuildRequest} {w : Workspace}

/-! ## Stages -/

namespace BuildStage

/-- Two faults that end a build in the same stage, whatever failed there. -/
def SameStage (e e' : Fault) : Prop :=
  ∃ (stage : BuildStage) (fault fault' : Fault), e = stage.failed fault ∧ e' = stage.failed fault'

/-- A stage agrees with itself under any label if its work does. -/
theorem run_agree {before after : Tree → Prop} {E : Fault → Fault → Prop} {R : α → β → Prop}
    {x : Action α} {y : Action β} (stage : BuildStage) (label label' : Text)
    (works : Agree before after E R x y) :
    Agree before after SameStage R (stage.run label x) (stage.run label' y) := by
  refine (Agree.note (E := SameStage) _ _).bind fun _ _ _ => ?_
  refine works.tryCatch fun fault fault' _ => ?_
  refine (Agree.note _ _).bind fun _ _ _ => ?_
  exact Agree.throw ⟨stage, fault, fault', rfl, rfl⟩

end BuildStage

/-! ## Toolchains -/

/-- A machine to which it is all one how the directory of a command is named: the command does the
same in a relative path as in its absolute path, or does not start in either. -/
structure Machine.IsPlaceBlind (machine : Machine) : Prop where
  same : ∀ (invocation : Invocation) (tree : Tree), tree.IsRooted →
    IsNameable tree.home invocation.directory →
    Paired (fun _ _ => True) Eq (machine invocation tree)
      (machine { invocation with directory := invocation.directory.absolute tree.home } tree)
  spares : machine.Spares fun tree tree' =>
    tree'.home = tree.home ∧ (tree.IsRooted → tree'.IsRooted)

namespace Toolchain

/-- Toolchains that have the same command, and their artifacts in the same place: the first looks
for it from a directory, the second from the absolute path of the directory. -/
inductive Meets (home : Location) (dir : Path) : Toolchain → Toolchain → Prop
  | prebuilt {artifact artifact' : Path}
      (same : (dir / artifact).absolute home = dir.absolute home / artifact') :
      Meets home dir (.prebuilt artifact) (.prebuilt artifact')
  | command {words : List Text} {artifact artifact' : Path}
      (same : (dir / artifact).absolute home = dir.absolute home / artifact') :
      Meets home dir (.command words artifact) (.command words artifact')

theorem Meets.refl (dir : Path) (toolchain : Toolchain) : Meets home dir toolchain toolchain := by
  cases toolchain with
  | prebuilt artifact => exact .prebuilt (Path.absolute_join _ _)
  | command words artifact => exact .command (Path.absolute_join _ _)

/-- The toolchain of a project in the current directory is that of the project with absolute
paths. -/
theorem ofProject_absolute {project : Project} (here : project.sourceDir = ⟨.relative, []⟩) :
    Paired (fun _ _ => True) (Meets home project.sourceDir) (ofProject project)
      (ofProject (project.absolute home)) := by
  have same : ∀ artifact : Path, (project.sourceDir / artifact).absolute home =
      project.sourceDir.absolute home / artifact.absolute home := by
    intro artifact
    rw [here, Path.join_current, Path.join_of_isAbsolute (Path.isAbsolute_absolute home artifact)]
  unfold ofProject Project.absolute
  cases project.artifact with
  | none => exact .error trivial
  | some artifact =>
      cases project.command with
      | none => exact .ok (.prebuilt (same artifact))
      | some words => exact .ok (.command (same artifact))

/-- A project that names no artifact names none with absolute paths. -/
theorem ofProject_absolute_error {project : Project} {e : Fault}
    (refused : ofProject project = .error e) : ofProject (project.absolute home) = .error e := by
  unfold ofProject Project.absolute at *
  cases artifact : project.artifact with
  | none =>
      rw [artifact] at refused
      exact refused
  | some _ => cases command : project.command <;> simp [artifact, command] at refused

variable {request : CompileRequest}

theorem looks_tellFailure (outcome : Outcome) : Looks (tellFailure outcome) :=
  LooksAt.anywhere (looksAt_tellFailure outcome)

theorem runCommand_agree (blind : machine.IsPlaceBlind) (words : List Text)
    (named : IsNameable home request.sourceDir) :
    Agree (StandsAt home) (StandsAt home) (fun _ _ => True) Eq (runCommand machine request words)
      (runCommand machine { request with sourceDir := request.sourceDir.absolute home } words) := by
  intro u v stands files mark
  have paired := blind.same (invocationFor request words) u.files stands.rooted
    (stands.home.symm ▸ named)
  rw [stands.home] at paired
  rw [outcome_runCommand, outcome_runCommand, files]
  obtain ⟨ran, first⟩ : ∃ ran, machine (invocationFor request words) u.files = ran := ⟨_, rfl⟩
  obtain ⟨ran', second⟩ : ∃ ran', machine (invocationFor
      { request with sourceDir := request.sourceDir.absolute home } words) u.files = ran' :=
    ⟨_, rfl⟩
  have paired : Paired (fun _ _ => True) Eq ran ran' := by
    rw [← first, ← second]
    exact paired
  rw [first, second]
  cases paired with
  | error _ => exact ⟨.error trivial, fun _ none => absurd none (by simp), rfl, mark⟩
  | @ok ended _ related =>
      subst related
      obtain ⟨same, keeps⟩ := blind.spares _ _ _ _ first
      exact Agree.of_looks_any (looks_tellFailure ended.1) _ _
        ⟨same.trans stands.home, keeps stands.rooted⟩ rfl mark

/-- An artifact is found in both places or in none. -/
theorem found_agree {artifact artifact' : Path}
    (same : (request.sourceDir / artifact).absolute home =
      request.sourceDir.absolute home / artifact')
    (named : IsNameable home (request.sourceDir / artifact)) :
    Agree (StandsAt home) (StandsAt home) (fun _ _ => True)
      (fun p p' => IsNameable home p ∧ p' = p.absolute home) (found request artifact)
      (found { request with sourceDir := request.sourceDir.absolute home } artifact') := by
  unfold found
  simp only
  rw [← same]
  exact Agree.isFile named (Agree.pure ⟨named, rfl⟩)

theorem compile_agree {toolchain toolchain' : Toolchain} (request : CompileRequest)
    (blind : machine.IsPlaceBlind)
    (meets : Meets home request.sourceDir toolchain toolchain')
    (directory : IsNameable home request.sourceDir)
    (named : IsNameable home (request.sourceDir / toolchain.artifact)) :
    Agree (StandsAt home) (StandsAt home) (fun _ _ => True)
      (fun p p' => IsNameable home p ∧ p' = p.absolute home) (toolchain.compile machine request)
      (toolchain'.compile machine
        { request with sourceDir := request.sourceDir.absolute home }) := by
  cases meets with
  | prebuilt same => exact found_agree same named
  | command same =>
      refine (runCommand_agree blind _ directory).bind fun _ _ _ => ?_
      exact found_agree same named

end Toolchain

/-! ## The stages side by side -/

theorem Ledger.looks_checkIn (p : Path) (d : Descriptor) : Looks (checkIn p d) :=
  LooksAt.anywhere (looksAt_checkIn trivial d)

namespace BuildRequest

/-- The paths that a build bases on the path of its source. -/
def pathsFound (request : BuildRequest) (w : Workspace) : List Path :=
  [request.source, request.source / Path.ofText Project.filename] ++
    match (request.resolve.outcome w).1 with
    | .ok (project, _) =>
      project.sourceDir :: project.resources.map ResourceSpec.source ++
        match request.chosen project with
        | .ok toolchain => [project.sourceDir / toolchain.artifact]
        | .error _ => []
    | .error _ => []

/-- A build whose paths are not too long, nor are they when they are made absolute. -/
structure IsFindable (request : BuildRequest) (home : Location) (w : Workspace) : Prop where
  nameable : ∀ p ∈ request.pathsFound w, IsNameable home p

namespace IsFindable

variable {project : Project} {d : Descriptor}

theorem source (h : request.IsFindable home w) : IsNameable home request.source :=
  h.nameable _ (by simp [pathsFound])

theorem config (h : request.IsFindable home w) :
    IsNameable home (request.source / Path.ofText Project.filename) :=
  h.nameable _ (by simp [pathsFound])

theorem directory (h : request.IsFindable home w)
    (resolved : (request.resolve.outcome w).1 = .ok (project, d)) :
    IsNameable home project.sourceDir :=
  h.nameable _ (by simp [pathsFound, resolved])

theorem artifact {toolchain : Toolchain} (h : request.IsFindable home w)
    (resolved : (request.resolve.outcome w).1 = .ok (project, d))
    (chosen : request.chosen project = .ok toolchain) :
    IsNameable home (project.sourceDir / toolchain.artifact) :=
  h.nameable _ (by simp [pathsFound, resolved, chosen])

theorem resource {spec : ResourceSpec} (h : request.IsFindable home w)
    (resolved : (request.resolve.outcome w).1 = .ok (project, d))
    (member : spec ∈ project.resources) : IsNameable home spec.source := by
  refine h.nameable _ ?_
  simp only [pathsFound, resolved, List.mem_append, List.mem_cons, List.mem_map]
  exact .inr (.inl (.inr ⟨spec, member, rfl⟩))

end IsFindable

/-- The toolchain that a build ends up with, if it gets as far as that. -/
def handed (request : BuildRequest) (w : Workspace) : Option Toolchain :=
  match (request.resolve.outcome w).1 with
  | .ok (project, _) => (request.chosen project).toOption
  | .error _ => none

/-- The build of the absolute path of the source, with a toolchain of its own. -/
def absolute (request : BuildRequest) (home : Location) (toolchain : Option Toolchain) :
    BuildRequest :=
  { request with source := request.source.absolute home, toolchain }

/-- The project that a build resolves is the one that is loaded. -/
theorem load_of_resolve {project : Project} {d : Descriptor}
    (resolved : (request.resolve.outcome w).1 = .ok (project, d)) :
    ∃ w', (Project.load request.source).outcome w = (.ok project, w') := by
  rcases ended : request.resolve.outcome w with ⟨result, w'⟩
  rw [ended] at resolved
  subst resolved
  unfold resolve at ended
  obtain ⟨loaded, w₁, given, ended⟩ := bind_gives.mp ended
  obtain ⟨_, w₂, _, ended⟩ := bind_gives.mp ended
  have same : loaded = project := by
    cases there : request.ledger with
    | none =>
        rw [there] at ended
        exact (Prod.mk.inj (Except.ok.inj (Prod.mk.inj ended).1)).1
    | some ledger =>
        rw [there] at ended
        obtain ⟨_, w₃, _, ended⟩ := bind_gives.mp ended
        exact (Prod.mk.inj (Except.ok.inj (Prod.mk.inj ended).1)).1
  exact ⟨w₁, same ▸ given⟩

/-- A project in the current directory is loaded from there. -/
theorem sourceDir_of_resolve {project : Project} {d : Descriptor}
    (here : request.source = Path.ofText ".")
    (resolved : (request.resolve.outcome w).1 = .ok (project, d)) :
    project.sourceDir = Path.ofText "." := by
  obtain ⟨w', loaded⟩ := load_of_resolve resolved
  obtain ⟨bytes, _, read⟩ := Project.load_gives loaded
  rw [(Project.parts_of_ofBytes read).1, here]
  by_cases directory : w.files.isDirectory (Path.ofText ".") = .ok true
  · rw [Project.fileAt_of_directory directory]
    rfl
  · rw [Project.fileAt_of_other directory]
    rfl

variable (toolchain : Option Toolchain)

theorem resolve_agree (findable : request.IsFindable home w) :
    Agree (StandsAt home) (StandsAt home) (fun _ _ => True)
      (fun made made' => made' = (made.1.absolute home, made.2)) request.resolve
      (request.absolute home toolchain).resolve := by
  unfold resolve
  refine (Project.load_agree findable.source findable.config).bind fun project project' same => ?_
  subst same
  refine (Agree.of_looks_any (Looks.ofExcept _ _)).bind fun d d' same => ?_
  subst same
  simp only [absolute]
  cases request.ledger with
  | none => exact Agree.pure rfl
  | some ledger =>
      refine (Agree.of_looks_any (Ledger.looks_checkIn ledger d)).bind fun _ _ _ => ?_
      exact Agree.pure rfl

theorem compile_agree {project : Project} {d : Descriptor} (target : Target)
    (blind : machine.IsPlaceBlind)
    (resolved : (request.resolve.outcome w).1 = .ok (project, d))
    (meets : Paired (fun _ _ => True) (Toolchain.Meets home project.sourceDir)
      (request.chosen project) ((request.absolute home toolchain).chosen (project.absolute home)))
    (findable : request.IsFindable home w) :
    Agree (StandsAt home) (StandsAt home) (fun _ _ => True) Eq
      (request.compile machine project d target)
      ((request.absolute home toolchain).compile machine (project.absolute home) d target) := by
  rw [compile_eq, compile_eq]
  refine (Agree.ofExcept (meets.tracked.mapError fun _ _ => id)).bind fun _ _ related => ?_
  obtain ⟨chosen, meet⟩ := related
  have compiles := Toolchain.compile_agree ⟨project.sourceDir, d, target.entry⟩ blind meet
    (findable.directory resolved) (findable.artifact resolved chosen)
  refine compiles.bind fun p p' found => ?_
  obtain ⟨nameable, rfl⟩ := found
  exact Agree.read nameable

theorem assemble_agree {project : Project} {d : Descriptor} {dir : Path} (target : Target)
    (artifact : Bytes) (block : SignatureBlock) (out : request.outDir = some dir)
    (resolved : (request.resolve.outcome w).1 = .ok (project, d))
    (findable : request.IsFindable home w) :
    Agree (StandsAt home) (fun _ => True) (fun _ _ => True) Eq
      (request.assemble project d target artifact block)
      ((request.absolute home toolchain).assemble (project.absolute home) d target artifact
        block) := by
  unfold assemble
  have reads := Project.readResources_agree fun spec => findable.resource resolved
  refine reads.bind fun resources resources' same => ?_
  subst same
  refine (Agree.of_looks_any (Looks.ofExcept _ _)).bind fun archive archive' same => ?_
  subst same
  refine (Agree.of_looks_any (Looks.ofExcept _ _)).bind fun name name' same => ?_
  subst same
  have same : (request.absolute home toolchain).outputDir (project.absolute home) =
      request.outputDir project := by
    simp only [outputDir, absolute, out, Option.getD_some]
  rw [same]
  have publishes : Agree (StandsAt home) (fun _ => True) (fun _ _ => True) Eq _ _ :=
    (Archive.isDeaf_publish archive d (request.outputDir project / Path.ofText name)
      request.overwrite request.ledger).mono
      (fun _ _ => trivial) (fun _ => id) (fun _ _ _ => trivial) fun _ _ => id
  refine publishes.bind fun _ _ _ => ?_
  exact Agree.pure rfl

/-- A toolchain that is handed on from a project has the source directory in the path of its
artifact. -/
theorem artifact_of_handed {toolchain : Toolchain} (own : request.toolchain = none)
    (handed : request.handed w = some toolchain) :
    ∃ project d p, (request.resolve.outcome w).1 = .ok (project, d) ∧ p.isAbsolute = false ∧
      toolchain.artifact = project.sourceDir / p := by
  unfold BuildRequest.handed at handed
  split at handed
  · rename_i project d resolved
    obtain ⟨w', loaded⟩ := load_of_resolve resolved
    obtain ⟨bytes, _, read⟩ := Project.load_gives loaded
    have chosen : (Toolchain.ofProject project).toOption = some toolchain := by
      rw [← handed, chosen, own]
    have named : project.artifact = some toolchain.artifact := by
      unfold Toolchain.ofProject at chosen
      split at chosen
      · exact absurd chosen (by simp [Except.toOption])
      · rename_i artifact words named _
        rw [named, ← Option.some.inj chosen]
        rfl
      · rename_i artifact named _
        rw [named, ← Option.some.inj chosen]
        rfl
    obtain ⟨p, relative, inside⟩ := (Project.artifact_of_ofBytes read named).exists_join
    rw [← (Project.parts_of_ofBytes read).1] at inside
    exact ⟨project, d, p, resolved, relative, inside⟩
  · exact absurd handed (by simp)

/-- The absolute build that is handed the toolchain of a build has it, if there is one. -/
theorem chosen_handed {project : Project} {d : Descriptor}
    (resolved : (request.resolve.outcome w).1 = .ok (project, d)) :
    Paired (fun _ _ => True) (Toolchain.Meets home project.sourceDir) (request.chosen project)
      ((request.absolute home (request.handed w)).chosen (project.absolute home)) := by
  unfold handed
  rw [resolved]
  simp only
  cases here : request.chosen project with
  | ok toolchain => exact .ok (Toolchain.Meets.refl _ toolchain)
  | error e =>
      unfold chosen at here
      split at here
      · exact absurd here (by simp)
      · show Paired _ _ _ (Toolchain.ofProject (project.absolute home))
        rw [Toolchain.ofProject_absolute_error here]
        exact .error trivial

/-- The absolute build has the toolchain that it is given, or that of the project in the current
directory. -/
theorem chosen_own {project : Project} {d : Descriptor}
    (plain : request.toolchain.isSome = true ∨ request.source = Path.ofText ".")
    (resolved : (request.resolve.outcome w).1 = .ok (project, d)) :
    Paired (fun _ _ => True) (Toolchain.Meets home project.sourceDir) (request.chosen project)
      ((request.absolute home request.toolchain).chosen (project.absolute home)) := by
  unfold chosen
  simp only [absolute]
  cases given : request.toolchain with
  | some toolchain => exact .ok (Toolchain.Meets.refl _ toolchain)
  | none =>
      have here : request.source = Path.ofText "." := plain.resolve_left (by simp [given])
      exact Toolchain.ofProject_absolute (sourceDir_of_resolve here resolved)

end BuildRequest

/-- Builds of a source and of its absolute path end alike, if their toolchains meet. -/
theorem build_endAlike {toolchain : Option Toolchain} {dir : Path} (blind : machine.IsPlaceBlind)
    (rooted : w.files.IsRooted) (findable : request.IsFindable w.files.home w)
    (out : request.outDir = some dir)
    (meets : ∀ project d, (request.resolve.outcome w).1 = .ok (project, d) →
      Paired (fun _ _ => True) (Toolchain.Meets w.files.home project.sourceDir)
        (request.chosen project)
        ((request.absolute w.files.home toolchain).chosen (project.absolute w.files.home))) :
    EndAlike (fun _ => True) BuildStage.SameStage Eq ((build machine matrix request).outcome w)
      ((build machine matrix (request.absolute w.files.home toolchain)).outcome w) := by
  have stands : w.files.StandsAt w.files.home := ⟨rfl, rooted⟩
  have agrees : Agree (· = w.files) (fun _ => True) BuildStage.SameStage Eq
      (build machine matrix request)
      (build machine matrix (request.absolute w.files.home toolchain)) := by
    unfold build
    simp only
    have resolves := (BuildRequest.resolve_agree toolchain findable).tracked request.looks_resolve
      stands
    refine (BuildStage.run_agree .resolving _ _ resolves).bind fun given given' related => ?_
    obtain ⟨resolved, rfl⟩ := related
    obtain ⟨project, d⟩ := given
    refine (BuildStage.run_agree .matrixCheck _ _
      (Agree.of_looks_any (request.looks_findTarget matrix))).bind fun target target' same => ?_
    subst same
    have compiles := BuildRequest.compile_agree toolchain target blind resolved
      (meets _ _ resolved) findable
    refine (BuildStage.run_agree .compiling _ _ compiles).bind fun artifact artifact' same => ?_
    subst same
    refine (BuildStage.run_agree .signing _ _
      (Agree.of_looks_any (request.looks_sign artifact d))).bind fun block block' same => ?_
    subst same
    have assembles := BuildRequest.assemble_agree toolchain target artifact block out resolved
      findable
    refine (BuildStage.run_agree .assembling _ _ assembles).bind fun made made' same => ?_
    subst same
    refine (Agree.note _ _).bind fun _ _ _ => ?_
    refine (Agree.note _ _).bind fun _ _ _ => ?_
    exact Agree.pure rfl
  exact agrees w w rfl rfl rfl

/-- A build with an output directory ends as that of its absolute path does that is handed its
toolchain: with the same result, or in the same stage, and the same files. So naming the source by
its absolute path makes no difference if a toolchain is given, and none in the current directory.
Otherwise the toolchain that is handed on has the source directory in the path of its artifact, to
which the absolute path of that directory is then joined. -/
theorem build_alike_absolute {dir : Path} (blind : machine.IsPlaceBlind) (rooted : w.files.IsRooted)
    (findable : request.IsFindable w.files.home w) (out : request.outDir = some dir) :
    EndAlike (fun _ => True) BuildStage.SameStage Eq ((build machine matrix request).outcome w)
        ((build machine matrix
          (request.absolute w.files.home (request.handed w))).outcome w) ∧
      (request.toolchain.isSome = true ∨ request.source = Path.ofText "." →
        EndAlike (fun _ => True) BuildStage.SameStage Eq ((build machine matrix request).outcome w)
          ((build machine matrix
            { request with source := request.source.absolute w.files.home }).outcome w)) ∧
      ∀ toolchain, request.toolchain = none → request.handed w = some toolchain →
        ∃ project d p, (request.resolve.outcome w).1 = .ok (project, d) ∧ p.isAbsolute = false ∧
          toolchain.artifact = project.sourceDir / p :=
  ⟨build_endAlike blind rooted findable out fun _ _ => BuildRequest.chosen_handed,
    fun plain => build_endAlike blind rooted findable out fun _ _ => BuildRequest.chosen_own plain,
    fun _ own handed => BuildRequest.artifact_of_handed own handed⟩

end ModulePackaging

/-! ## A project in a directory of its own -/

namespace ModulePackaging.Sample

open Files Files.Tree Action

/-- The home with the project in a directory in it, and what else is there. -/
def inSource (others : List (Location × Node)) : Workspace where
  files := {
    home := ["p"]
    nodes :=
      (["p"], .directory) ::
      (["p", "src"], .directory) ::
      (["p", "src", "simpack.json"],
        .file ((project []).storedBytes.toOption.getD []) defaultMode) :: others }
  log := []
  mark := "1"

/-- The project with its module where its project file names it. -/
def moduleInSource : Workspace := inSource [(["p", "src", "m.so"], .file [0x4D] defaultMode)]

/-- The project with its module in a directory that is named like the one of the project. -/
def moduleDoubled : Workspace := inSource [
  (["p", "src", "src"], .directory),
  (["p", "src", "src", "m.so"], .file [0x4D] defaultMode)]

/-- The build of the project in its directory. -/
def sourceRequest : BuildRequest :=
  { request with source := Path.ofText "src", outDir := some (Path.ofText "out"), ledger := none }

/-- Commands that change nothing do so wherever they run. -/
theorem machine_isPlaceBlind : machine.IsPlaceBlind where
  same _ _ _ _ := .ok rfl
  spares := by
    intro _ tree _ _ ran
    obtain ⟨_, rfl⟩ := Prod.mk.inj (Except.ok.inj ran)
    exact ⟨rfl, id⟩

theorem inSource_isRooted (others : List (Location × Node)) : (inSource others).files.IsRooted where
  forward := show back ∉ ([("p" : Text)] : Location) by decide
  leads _ := ⟨rfl, rfl⟩

theorem workspace_isRooted : (workspace [] []).files.IsRooted where
  forward := by decide
  leads _ := ⟨rfl, rfl⟩

set_option maxRecDepth 100000 in
theorem moduleDoubled_builds : sourceRequest.IsFindable moduleDoubled.files.home moduleDoubled ∧
    (build machine matrix sourceRequest).gives moduleDoubled (fun _ _ => true) = true :=
  ⟨⟨by decide +kernel⟩, by decide +kernel⟩

/-- The build of the project in the current directory. -/
def currentRequest : BuildRequest := { sourceRequest with source := Path.ofText "." }

set_option maxRecDepth 100000 in
theorem workspace_builds :
    currentRequest.IsFindable (workspace [] []).files.home (workspace [] []) ∧
      (build machine matrix currentRequest).gives (workspace [] []) (fun _ _ => true) = true :=
  ⟨⟨by decide +kernel⟩, by decide +kernel⟩

/-- The build that finds its module in the doubled directory has the result of the absolute build
that is handed the path of the module with the directory in it. The build in the current directory
has the result of the absolute build. -/
theorem build_alike_absolute_of_doubled :
    (∃ built w' v', (build machine matrix sourceRequest).outcome moduleDoubled = (.ok built, w') ∧
      (build machine matrix (sourceRequest.absolute moduleDoubled.files.home
        (sourceRequest.handed moduleDoubled))).outcome moduleDoubled = (.ok built, v') ∧
      v'.files = w'.files) ∧
    ∃ built w' v',
      (build machine matrix currentRequest).outcome (workspace [] []) = (.ok built, w') ∧
      (build machine matrix { currentRequest with
        source := currentRequest.source.absolute (workspace [] []).files.home }).outcome
          (workspace [] []) = (.ok built, v') ∧
      v'.files = w'.files := by
  constructor
  · obtain ⟨findable, succeeds⟩ := moduleDoubled_builds
    obtain ⟨built, w', ended, _⟩ := exists_of_gives succeeds
    obtain ⟨handed, _⟩ := build_alike_absolute machine_isPlaceBlind (inSource_isRooted _) findable
      rfl
    obtain ⟨v', ended', files⟩ := handed.gives ended
    exact ⟨built, w', v', ended, ended', files⟩
  · obtain ⟨findable, succeeds⟩ := workspace_builds
    obtain ⟨built, w', ended, _⟩ := exists_of_gives succeeds
    obtain ⟨_, plain, _⟩ := build_alike_absolute machine_isPlaceBlind workspace_isRooted findable rfl
    obtain ⟨v', ended', files⟩ := (plain (.inr rfl)).gives ended
    exact ⟨built, w', v', ended, ended', files⟩

set_option maxRecDepth 100000 in
/-- The build of the directory of the project does not find the module in it. That of its absolute
path does. -/
theorem moduleInSource_needs_absolute :
    (∃ e w', (build machine matrix sourceRequest).outcome moduleInSource = (.error e, w')) ∧
      ∃ built w', (build machine matrix { sourceRequest with
        source := sourceRequest.source.absolute moduleInSource.files.home }).outcome
          moduleInSource = (.ok built, w') := by
  have relative : (build machine matrix sourceRequest).fails moduleInSource (fun _ => true) =
      true := by decide +kernel
  have absolute : (build machine matrix { sourceRequest with
      source := sourceRequest.source.absolute moduleInSource.files.home }).gives moduleInSource
        (fun _ _ => true) = true := by decide +kernel
  obtain ⟨e, w', failed, _⟩ := exists_of_fails relative
  obtain ⟨built, v', ended, _⟩ := exists_of_gives absolute
  exact ⟨⟨e, w', failed⟩, built, v', ended⟩

end ModulePackaging.Sample
