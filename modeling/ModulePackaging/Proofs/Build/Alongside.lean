import ModulePackaging.Proofs.Archive.Alongside
import ModulePackaging.Proofs.Build.AllOrNothing

/-!
# A build in two workspaces

Everything that a build looks at is on a path that it uses, or seen by the command that it runs.
Where these find two workspaces alike, the build ends alike in both: in the same stage with the same
fault, or with the same result and the same archive.
-/

namespace ModulePackaging

open Files Files.Tree Action

variable {α : Type} {u v u' v' w : Workspace} {reach : Reach} {own scope : Location → Prop}
  {p out : Path} {machine : Machine} {matrix : Matrix} {request : BuildRequest}

/-! ## Ledgers and archives -/

namespace Ledger

theorem save_abreast (company : Company reach u v) (stores : reach.Stores p) (ledger : Ledger) :
    Abreast reach.seen (ledger.save p) u v := by
  unfold save
  split
  · exact .of_looks company (LooksAt.throw _)
  · exact .storeJson company stores _

theorem record_abreast (company : Company reach u v) (stores : reach.Stores p) (d : Descriptor) :
    Abreast reach.seen (record p d) u v := by
  unfold record
  have loads : Abreast reach.seen (load p) u v := .of_looks company (looksAt_load stores.path)
  refine loads.bind company fun ledger u₁ v₁ met₁ _ => ?_
  have checks : Abreast reach.seen (Action.ofExcept ReleaseError.toFault (ledger.check d)) u₁ v₁ :=
    .of_looks met₁ (LooksAt.ofExcept _ _)
  refine checks.bind met₁ fun _ u₂ v₂ met₂ _ => ?_
  have saves := save_abreast met₂ stores (ledger.put (entryFor d))
  exact saves.bind met₂ fun _ u₃ v₃ met _ => .of_looks met (LooksAt.pure _)

theorem rollback_abreast (company : Company reach u v) (stores : reach.Stores p) (d : Descriptor)
    (prior : Option LedgerEntry) : Abreast reach.seen (rollback p d prior) u v := by
  unfold rollback
  have loads : Abreast reach.seen (load p) u v := .of_looks company (looksAt_load stores.path)
  refine loads.bind company fun ledger u₁ v₁ met _ => ?_
  cases prior with
  | none => exact save_abreast met stores _
  | some entry => exact save_abreast met stores _

end Ledger

/-- An archive is published alike in two workspaces that publishing finds alike. -/
theorem Archive.publish_abreast {archive : Archive} {overwrite : Bool} {ledger : Option Path}
    (company : Company reach u v) (commits : reach.Commits out) (name : Path.IsPlainName out.name)
    (plain : Path.slash ∉ reach.start.mark) (stores : ∀ p, ledger = some p → reach.Stores p)
    (d : Descriptor) : Abreast reach.seen (archive.publish d out overwrite ledger) u v := by
  cases ledger with
  | none => exact commit_abreast company commits name plain
  | some p =>
      unfold publish
      have records := Ledger.record_abreast company (stores p rfl) d
      refine records.bind company fun prior u₁ v₁ met₁ _ => ?_
      have committed : Abreast reach.seen (archive.commit out overwrite) u₁ v₁ :=
        commit_abreast met₁ commits name plain
      refine committed.tryCatch met₁ fun fault u₂ v₂ met₂ => ?_
      have back := Ledger.rollback_abreast met₂ (stores p rfl) d prior
      exact back.bind met₂ fun _ u₃ v₃ met _ => .of_looks met (LooksAt.throw _)

/-! ## Commands -/

/-- A command that does the same in all trees that are the same in its scope, and changes nothing
else. -/
def Machine.IsConfined (machine : Machine) (scope : Location → Prop) (invocation : Invocation) :
    Prop :=
  ∀ u v, Comparable u v → (∀ l, scope l → v.node? l = u.node? l) →
    (∃ e, machine invocation u = .error e ∧ machine invocation v = .error e) ∨
      ∃ outcome u' v', machine invocation u = .ok (outcome, u') ∧
        machine invocation v = .ok (outcome, v') ∧ Together scope u v u' v'

namespace Toolchain

theorem runCommand_abreast {request : CompileRequest} {words : List Text}
    (company : Company reach u v) (inside : ∀ l, scope l → reach.seen l)
    (confined : machine.IsConfined scope (invocationFor request words)) :
    Abreast reach.seen (runCommand machine request words) u v := by
  rcases confined u.files v.files company.pair fun l here => company.same l (inside l here) with
    ⟨e, ran, ran'⟩ | ⟨outcome, files, files', ran, ran', together⟩
  · refine .of_ends (.error (startFault e)) { u with log := u.log ++ [commandRecord words] }
      { v with log := v.log ++ [commandRecord words] } ?_ ?_ rfl rfl (Together.refl company.pair)
    · rw [outcome_runCommand, ran]
    · rw [outcome_runCommand, ran']
  · have wider := together.mono inside
    have met : Company reach { u with log := u.log ++ [commandRecord words], files }
        { v with log := v.log ++ [commandRecord words], files := files' } :=
      company.of_together rfl rfl wider
    have told : Abreast reach.seen (tellFailure outcome) _ _ :=
      .of_looks met (looksAt_tellFailure outcome)
    obtain ⟨result, u₁, v₁, ended, ended', mark, mark', kept⟩ := told.ends
    refine .of_ends result u₁ v₁ ?_ ?_ mark mark' (wider.trans kept)
    · rw [outcome_runCommand, ran]
      exact ended
    · rw [outcome_runCommand, ran']
      exact ended'

/-- The compiled module of a toolchain, as it is named. -/
def artifact : Toolchain → Path
  | prebuilt artifact => artifact
  | command _ artifact => artifact

theorem found_gives {request : CompileRequest} {artifact path : Path}
    (h : (found request artifact).outcome w = (.ok path, v)) :
    path = request.sourceDir / artifact := by
  unfold found at h
  obtain ⟨isFile, w₁, _, h⟩ := bind_gives.mp h
  split at h
  · cases h
    rfl
  · exact absurd h (by simp)

/-- The path of the compiled module is in the source directory. -/
theorem compile_gives {request : CompileRequest} {toolchain : Toolchain} {path : Path}
    (h : (toolchain.compile machine request).outcome w = (.ok path, v)) :
    path = request.sourceDir / toolchain.artifact := by
  cases toolchain with
  | prebuilt artifact => exact found_gives h
  | command words artifact =>
      obtain ⟨_, w₁, _, h⟩ := bind_gives.mp h
      exact found_gives h

theorem compile_abreast {request : CompileRequest} {toolchain : Toolchain}
    (company : Company reach u v) (inside : ∀ l, scope l → reach.seen l)
    (confined : ∀ words artifact, toolchain = .command words artifact →
      machine.IsConfined scope (invocationFor request words))
    (here : reach.paths (request.sourceDir / toolchain.artifact)) :
    Abreast reach.seen (toolchain.compile machine request) u v := by
  cases toolchain with
  | prebuilt artifact => exact .of_looks company (looksAt_found here)
  | command words artifact =>
      have runs := runCommand_abreast company inside (confined words artifact rfl)
      exact runs.bind company fun _ u₁ v₁ met _ => .of_looks met (looksAt_found here)

end Toolchain

/-! ## Stages -/

/-- A stage ends alike when its work does. -/
theorem BuildStage.run_abreast {stage : BuildStage} {label : Text} {work : Action α}
    (company : Company reach u v)
    (works : ∀ u' v', Company reach u' v' → Abreast own work u' v') :
    Abreast own (stage.run label work) u v := by
  unfold run
  have noted : Abreast own (Action.note (stage.entryRecord label)) u v :=
    .of_looks company (LooksAt.note _)
  refine noted.bind company fun _ u₁ v₁ met _ => ?_
  have worked := works u₁ v₁ met
  refine worked.tryCatch met fun fault u₂ v₂ met₂ => ?_
  exact .of_looks met₂ ((LooksAt.note _).bind fun _ => LooksAt.throw _)

namespace BuildRequest

/-- The toolchain that a build compiles with: its own, or the one of the project. -/
def chosen (request : BuildRequest) (project : Project) : Except Fault Toolchain :=
  match request.toolchain with
  | some toolchain => .ok toolchain
  | none => Toolchain.ofProject project

theorem compile_eq (request : BuildRequest) (machine : Machine) (project : Project) (d : Descriptor)
    (target : Target) : request.compile machine project d target = (do
      let toolchain ← Action.ofExcept id (request.chosen project)
      let artifact ← toolchain.compile machine ⟨project.sourceDir, d, target.entry⟩
      Action.ask (·.read artifact)) := by
  unfold compile chosen
  cases request.toolchain with
  | none => rfl
  | some toolchain => rfl

/-- The paths that a build uses: those that it reads, the one that it writes to, the ledger, and the
temporary ones beside these. -/
inductive Uses (request : BuildRequest) (matrix : Matrix) (w : Workspace) : Path → Prop
  | source : Uses request matrix w request.source
  | config : Uses request matrix w (request.source / Path.ofText Project.filename)
  | key {p : Path} (here : request.key = .file p) : Uses request matrix w p
  | artifact {project : Project} {d : Descriptor} {toolchain : Toolchain}
      (resolved : (request.resolve.outcome w).1 = .ok (project, d))
      (chosen : request.chosen project = .ok toolchain) :
      Uses request matrix w (project.sourceDir / toolchain.artifact)
  | resource {project : Project} {d : Descriptor} {spec : ResourceSpec}
      (resolved : (request.resolve.outcome w).1 = .ok (project, d))
      (member : spec ∈ project.resources) : Uses request matrix w spec.source
  | ledger {p : Path} (here : request.ledger = some p) : Uses request matrix w p
  | beside {p : Path} (here : request.ledger = some p) : Uses request matrix w (p.temporary w.mark)
  | output {p : Path} (here : request.outputPath? matrix w = some p) : Uses request matrix w p
  | stage {p : Path} (here : request.outputPath? matrix w = some p) :
      Uses request matrix w (Archive.stageOf p w.mark)

/-- The paths that a build uses, as a list. -/
def pathsUsed (request : BuildRequest) (matrix : Matrix) (w : Workspace) : List Path :=
  let inProject :=
    match (request.resolve.outcome w).1 with
    | .ok (project, _) =>
      project.resources.map ResourceSpec.source ++
        match request.chosen project with
        | .ok toolchain => [project.sourceDir / toolchain.artifact]
        | .error _ => []
    | .error _ => []
  let keys :=
    match request.key with
    | .file p => [p]
    | .handle _ => []
  [request.source, request.source / Path.ofText Project.filename] ++ keys ++ inProject ++
    request.ledger.toList.flatMap (fun p => [p, p.temporary w.mark]) ++
    (request.outputPath? matrix w).toList.flatMap fun p => [p, Archive.stageOf p w.mark]

theorem mem_pathsUsed (uses : request.Uses matrix w p) : p ∈ request.pathsUsed matrix w := by
  unfold pathsUsed
  cases uses with
  | source => simp
  | config => simp
  | key here => simp [here]
  | artifact resolved chosen => simp [resolved, chosen]
  | resource resolved member =>
      simp only [resolved, List.mem_append, List.mem_map]
      exact .inl (.inl (.inr (.inl ⟨_, member, rfl⟩)))
  | ledger here => simp [here]
  | beside here => simp [here]
  | output here => simp [here]
  | stage here => simp [here]

/-- The command that a build runs. -/
inductive Invokes (request : BuildRequest) (matrix : Matrix) (w : Workspace) : Invocation → Prop
  | command {project : Project} {d : Descriptor} {target : Target} {words : List Text}
      {artifact : Path}
      (resolved : (request.resolve.outcome w).1 = .ok (project, d))
      (found : matrix.resolveJson request.target = .ok target)
      (chosen : request.chosen project = .ok (.command words artifact)) :
      Invokes request matrix w
        (Toolchain.invocationFor ⟨project.sourceDir, d, target.entry⟩ words)

/-- What a build looks at: the paths that it uses with their places, and the scope of its
command. -/
def footprint (request : BuildRequest) (matrix : Matrix) (w : Workspace) (scope : Location → Prop) :
    Reach where
  start := w
  paths := request.Uses matrix w
  seen l := scope l ∨ ∃ p, request.Uses matrix w p ∧ l = w.files.placeOf p

theorem seen_of_uses (uses : request.Uses matrix w p) :
    (request.footprint matrix w scope).seen ((request.footprint matrix w scope).placeOf p) :=
  .inr ⟨p, uses, rfl⟩

theorem compile_abreast {project : Project} {d : Descriptor} {target : Target}
    (company : Company (request.footprint matrix w scope) u v)
    (confined : ∀ invocation, request.Invokes matrix w invocation →
      machine.IsConfined scope invocation)
    (resolved : (request.resolve.outcome w).1 = .ok (project, d))
    (found : matrix.resolveJson request.target = .ok target) :
    Abreast (request.footprint matrix w scope).seen
      (request.compile machine project d target) u v := by
  rw [compile_eq]
  have chooses : Abreast (request.footprint matrix w scope).seen
      (Action.ofExcept id (request.chosen project)) u v :=
    .of_looks company (LooksAt.ofExcept _ _)
  refine chooses.bind company fun toolchain u₁ v₁ met₁ ended => ?_
  have chosen : request.chosen project = .ok toolchain := (ofExcept_gives ended).1
  have uses : request.Uses matrix w (project.sourceDir / toolchain.artifact) :=
    .artifact resolved chosen
  have compiles : Abreast (request.footprint matrix w scope).seen
      (toolchain.compile machine ⟨project.sourceDir, d, target.entry⟩) u₁ v₁ := by
    refine Toolchain.compile_abreast met₁ (fun l => .inl) (fun words artifact isCommand => ?_) uses
    exact confined _ (.command resolved found (isCommand ▸ chosen))
  refine compiles.bind met₁ fun path u₂ v₂ met₂ ended => ?_
  have place := Toolchain.compile_gives ended
  subst place
  exact .of_looks met₂ (LooksAt.read uses)

theorem outputPath?_eq {project : Project} {d : Descriptor} {target : Target} {filename : Text}
    (resolved : (request.resolve.outcome w).1 = .ok (project, d))
    (found : matrix.resolveJson request.target = .ok target)
    (named : d.draft.archiveFilename target.requested.toText = .ok filename) :
    request.outputPath? matrix w = some (request.outputDir project / Path.ofText filename) := by
  unfold outputPath?
  rw [resolved, found]
  simp only
  rw [named]

theorem assemble_abreast {project : Project} {d : Descriptor} {target : Target} {artifact : Bytes}
    {block : SignatureBlock} (company : Company (request.footprint matrix w scope) u v)
    (plain : w.HasPlainMark) (resolved : (request.resolve.outcome w).1 = .ok (project, d))
    (found : matrix.resolveJson request.target = .ok target) :
    Abreast (request.footprint matrix w scope).seen
      (request.assemble project d target artifact block) u v := by
  unfold assemble
  have reads : Abreast (request.footprint matrix w scope).seen project.readResources u v :=
    .of_looks company (Project.looksAt_readResources fun spec member => .resource resolved member)
  refine reads.bind company fun resources u₁ v₁ met₁ _ => ?_
  have laid : Abreast (request.footprint matrix w scope).seen (Action.ofExcept id
      (Archive.assemble d.draft artifact block (resources ++ request.extra) (some target.entry)))
      u₁ v₁ := .of_looks met₁ (LooksAt.ofExcept _ _)
  refine laid.bind met₁ fun archive u₂ v₂ met₂ _ => ?_
  have files : Abreast (request.footprint matrix w scope).seen
      (Action.ofExcept id (d.draft.archiveFilename target.requested.toText)) u₂ v₂ :=
    .of_looks met₂ (LooksAt.ofExcept _ _)
  refine files.bind met₂ fun filename u₃ v₃ met₃ ended => ?_
  have named := (ofExcept_gives ended).1
  have output := outputPath?_eq resolved found named
  have commits : (request.footprint matrix w scope).Commits
      (request.outputDir project / Path.ofText filename) :=
    ⟨.output output, seen_of_uses (.output output), seen_of_uses (.stage output)⟩
  have stores : ∀ p, request.ledger = some p → (request.footprint matrix w scope).Stores p :=
    fun p here => ⟨.ledger here, seen_of_uses (.ledger here), seen_of_uses (.beside here)⟩
  have publishes : Abreast (request.footprint matrix w scope).seen (archive.publish d
      (request.outputDir project / Path.ofText filename) request.overwrite request.ledger) u₃ v₃ :=
    Archive.publish_abreast met₃ commits (Archive.isArchiveName_of_filename named _).plain
      plain.slash stores d
  exact publishes.bind met₃ fun _ u₄ v₄ met _ => .of_looks met (LooksAt.pure _)

/-- The stage that resolves a build gives what resolving gives. -/
theorem resolved_of_run {project : Project} {d : Descriptor} {label : Text}
    (h : (BuildStage.resolving.run label request.resolve).outcome w = (.ok (project, d), w')) :
    (request.resolve.outcome w).1 = .ok (project, d) := by
  obtain ⟨v, v', files, _, outcome⟩ := BuildStage.run_gives h
  rw [← request.looks_resolve.same v w files, outcome]

/-- The stage that checks the target gives what the matrix has for it. -/
theorem found_of_run {target : Target} {label : Text}
    (h : (BuildStage.matrixCheck.run label (request.findTarget matrix)).outcome w =
      (.ok target, w')) : matrix.resolveJson request.target = .ok target := by
  obtain ⟨v, v', _, _, outcome⟩ := BuildStage.run_gives h
  exact findTarget_gives outcome

end BuildRequest

/-! ## The whole build -/

/-- A build ends alike in the workspace that it starts in and in another one that it finds alike. -/
theorem build_abreast (company : Company (request.footprint matrix w scope) w v)
    (plain : w.HasPlainMark)
    (confined : ∀ invocation, request.Invokes matrix w invocation →
      machine.IsConfined scope invocation) :
    Abreast (request.footprint matrix w scope).seen (build machine matrix request) w v := by
  unfold build
  simp only
  have resolves : Abreast (request.footprint matrix w scope).seen
      (BuildStage.resolving.run request.label request.resolve) w v :=
    BuildStage.run_abreast company fun u' v' met => .of_looks met
      (request.looksAt_resolve .source .config fun p here => .ledger here)
  refine resolves.bind company fun ⟨project, d⟩ u₁ v₁ met₁ ended => ?_
  have resolved := BuildRequest.resolved_of_run ended
  have finds : Abreast (request.footprint matrix w scope).seen
      (BuildStage.matrixCheck.run request.label (request.findTarget matrix)) u₁ v₁ :=
    BuildStage.run_abreast met₁ fun u' v' met => .of_looks met (request.looksAt_findTarget matrix)
  refine finds.bind met₁ fun target u₂ v₂ met₂ ended => ?_
  have found := BuildRequest.found_of_run ended
  have compiles : Abreast (request.footprint matrix w scope).seen
      (BuildStage.compiling.run request.label (request.compile machine project d target)) u₂ v₂ :=
    BuildStage.run_abreast met₂ fun u' v' met =>
      BuildRequest.compile_abreast met confined resolved found
  refine compiles.bind met₂ fun artifact u₃ v₃ met₃ _ => ?_
  have signs : Abreast (request.footprint matrix w scope).seen
      (BuildStage.signing.run request.label (request.sign artifact d)) u₃ v₃ :=
    BuildStage.run_abreast met₃ fun u' v' met => .of_looks met
      (request.looksAt_sign (fun p here => .key here) artifact d)
  refine signs.bind met₃ fun block u₄ v₄ met₄ _ => ?_
  have assembles : Abreast (request.footprint matrix w scope).seen (BuildStage.assembling.run
      request.label (request.assemble project d target artifact block)) u₄ v₄ :=
    BuildStage.run_abreast met₄ fun u' v' met =>
      BuildRequest.assemble_abreast met plain resolved found
  refine assembles.bind met₄ fun ⟨archive, path⟩ u₅ v₅ met _ => ?_
  exact .of_looks met
    ((LooksAt.note _).bind fun _ => (LooksAt.note _).bind fun _ => LooksAt.pure _)

end ModulePackaging
