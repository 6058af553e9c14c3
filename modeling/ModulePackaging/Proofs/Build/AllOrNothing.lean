import ModulePackaging.Proofs.Archive.ReadBack
import ModulePackaging.Proofs.Build.Stages

/-!
# Builds are all or nothing

A build that succeeds leaves its archive in the output path and its release in the ledger. One that
fails, at whatever stage, leaves the output path as it was and no staging directory, and the ledger
is the same map as before, with one exception: an entry that cannot be written is not put back.
-/

namespace ModulePackaging

open Files Files.Tree Action

variable {machine : Machine} {matrix : Matrix} {request : BuildRequest} {w w' : Workspace}

namespace BuildRequest

/-- The path that the archive of a build goes to, as soon as the metadata and the target tell it. -/
def outputPath? (request : BuildRequest) (matrix : Matrix) (w : Workspace) : Option Path :=
  match (request.resolve.outcome w).1, matrix.resolveJson request.target with
  | .ok (project, d), .ok target =>
    match d.draft.archiveFilename target.requested.toText with
    | .ok filename => some (request.outputDir project / Path.ofText filename)
    | .error _ => none
  | _, _ => none

/-- The last stage fails before anything is published, or ends as publishing does. -/
theorem assemble_ends {project : Project} {d : Descriptor} {target : Target} {artifact : Bytes}
    {block : SignatureBlock} {result : Except Fault (Archive × Path)}
    (h : (request.assemble project d target artifact block).outcome w = (result, w')) :
    ((∃ e, result = .error e) ∧ w'.files = w.files ∧ w'.mark = w.mark) ∨
      ∃ resources archive filename published v,
        Archive.assemble d.draft artifact block resources (some target.entry) = .ok archive ∧
          d.draft.archiveFilename target.requested.toText = .ok filename ∧
          v.files = w.files ∧ v.mark = w.mark ∧
          (archive.publish d (request.outputDir project / Path.ofText filename) request.overwrite
            request.ledger).outcome v = (published, w') ∧
          result = published.map fun _ =>
            (archive, request.outputDir project / Path.ofText filename) := by
  unfold assemble at h
  have readLooks := project.looks_readResources
  rcases bind_ends h with ⟨e, failed, rfl⟩ | ⟨read, w₁, resources, h⟩
  · exact .inl ⟨⟨e, rfl⟩, readLooks.outcome failed⟩
  obtain ⟨files, mark⟩ := readLooks.outcome resources
  rcases bind_ends h with ⟨e, failed, rfl⟩ | ⟨archive, w₂, assembled, h⟩
  · rw [outcome_ofExcept] at failed
    obtain rfl := (Prod.mk.inj failed).2
    exact .inl ⟨⟨e, rfl⟩, files, mark⟩
  obtain ⟨laidOut, rfl⟩ := ofExcept_gives assembled
  rcases bind_ends h with ⟨e, failed, rfl⟩ | ⟨filename, w₃, named, h⟩
  · rw [outcome_ofExcept] at failed
    obtain rfl := (Prod.mk.inj failed).2
    exact .inl ⟨⟨e, rfl⟩, files, mark⟩
  obtain ⟨filed, rfl⟩ := ofExcept_gives named
  right
  rcases bind_ends h with ⟨e, failed, rfl⟩ | ⟨_, w₄, published, h⟩
  · exact ⟨_, archive, filename, .error e, _, laidOut, filed, files, mark, failed, rfl⟩
  · cases h
    exact ⟨_, archive, filename, .ok (), _, laidOut, filed, files, mark, published, rfl⟩

/-- Signing in a build gives the block of a key for its descriptor. -/
theorem sign_gives {artifact : Bytes} {d : Descriptor} {block : SignatureBlock}
    (h : (request.sign artifact d).outcome w = (.ok block, w')) :
    ∃ handle, (∃ v, request.key.load.outcome w = (.ok handle, v)) ∧
      Signing.sign artifact d.draft handle = .ok (d, block) := by
  unfold sign at h
  obtain ⟨handle, w₁, loaded, h₁⟩ := bind_gives.mp h
  obtain ⟨⟨e, found⟩, w₂, signed, h₂⟩ := bind_gives.mp h₁
  obtain ⟨done, rfl⟩ := ofExcept_gives signed
  obtain ⟨_, _, _, _, same, _⟩ := Signing.sign_eq_ok done
  obtain ⟨_, w₃, _, h₃⟩ := bind_gives.mp h₂
  obtain ⟨given, _⟩ := Prod.mk.inj h₃
  cases given
  have samed : d = e := by
    apply Descriptor.eq_of_value_eq
    intro field
    have values := congrArg (fun draft : Draft => draft.value field) same
    simpa using values
  exact ⟨handle, ⟨w₁, loaded⟩, samed ▸ done⟩

theorem findTarget_gives {target : Target}
    (h : (request.findTarget matrix).outcome w = (.ok target, w')) :
    matrix.resolveJson request.target = .ok target := by
  unfold findTarget at h
  obtain ⟨found, w₁, resolved, h₁⟩ := bind_gives.mp h
  obtain ⟨done, rfl⟩ := ofExcept_gives resolved
  obtain ⟨_, w₂, _, h₂⟩ := bind_gives.mp h₁
  obtain ⟨given, _⟩ := Prod.mk.inj h₂
  cases given
  exact done

end BuildRequest

/-! ## What a build prepares -/

/-- What a build has put together when it publishes. -/
structure Shipment where
  descriptor : Descriptor
  target : Target
  handle : KeyHandle
  artifact : Bytes
  block : SignatureBlock
  resources : List Resource
  archive : Archive
  path : Path

/-- What is shipped is what a build asks for: its descriptor and target, signed with the key that its
source holds when the module is compiled. -/
structure BuildRequest.Prepares (request : BuildRequest) (matrix : Matrix) (K : Tree → Tree → Prop)
    (w : Workspace) (s : Shipment) : Prop where
  resolved : ∃ project, (request.resolve.outcome w).1 = .ok (project, s.descriptor)
  target : matrix.resolveJson request.target = .ok s.target
  key : ∃ v v', K w.files v.files ∧ request.key.load.outcome v = (.ok s.handle, v')
  signed : Signing.sign s.artifact s.descriptor.draft s.handle = .ok (s.descriptor, s.block)
  assembled : Archive.assemble s.descriptor.draft s.artifact s.block s.resources
    (some s.target.entry) = .ok s.archive
  output : request.outputPath? matrix w = some s.path
  name : Archive.IsArchiveName s.path.name

/-- The result of a build that publishes what it prepared. -/
def Shipment.result (s : Shipment) : BuildResult := ⟨s.descriptor, s.target, s.archive, s.path⟩

/-- A build fails before it publishes anything, or ends as publishing what it prepared does. -/
theorem build_ends {K : Tree → Tree → Prop} [IsPreorder Tree K] {result : Except Fault BuildResult}
    (spares : machine.Spares K) (h : (build machine matrix request).outcome w = (result, w')) :
    ((∃ stage fault, result = .error (BuildStage.failed stage fault)) ∧ Undisturbed K w w') ∨
      ∃ s published v v', request.Prepares matrix K w s ∧ Undisturbed K w v ∧
        (s.archive.publish s.descriptor s.path request.overwrite request.ledger).outcome v =
          (published, v') ∧
        w'.files = v'.files ∧ w'.mark = v'.mark ∧
        result = (published.map fun _ => s.result).mapError BuildStage.assembling.failed := by
  unfold build at h
  simp only at h
  rcases BuildStage.run_cases (Undisturbed.of_looks request.looks_resolve) (Undisturbed.refl (K := K) w) h
    with failed | ⟨⟨project, d⟩, v₁, v₁', w₁, files₁, resolved, kept₁, h₁⟩
  · exact .inl failed
  rcases BuildStage.run_cases (Undisturbed.of_looks (request.looks_findTarget matrix)) kept₁ h₁
    with failed | ⟨target, v₂, v₂', w₂, _, checked, kept₂, h₂⟩
  · exact .inl failed
  rcases BuildStage.run_cases (request.compile_moves spares project d target) kept₂ h₂
    with failed | ⟨artifact, v₃, v₃', w₃, _, compiled, kept₃, h₃⟩
  · exact .inl failed
  rcases BuildStage.run_cases (Undisturbed.of_looks (request.looks_sign artifact d)) kept₃ h₃
    with failed | ⟨block, v₄, v₄', w₄, files₄, signed, kept₄, h₄⟩
  · exact .inl failed
  obtain ⟨handle, ⟨_, loaded⟩, signs⟩ := BuildRequest.sign_gives signed
  have key : ∃ v v', K w.files v.files ∧ request.key.load.outcome v = (.ok handle, v') :=
    ⟨v₄, _, files₄ ▸ kept₃.2, loaded⟩
  have found := BuildRequest.findTarget_gives checked
  have given : (request.resolve.outcome w).1 = .ok (project, d) := by
    rw [← request.looks_resolve.same v₁ w files₁, resolved]
  -- Behind the last stage there are only notes, so the build ends as the work in it does.
  obtain ⟨v, ends, v', files, mark, ended, same, marks, told⟩ :=
    BuildStage.run_then_ends (fun made : Archive × Path => BuildResult.mk d target made.1 made.2) h₄
      fun _ _ => ⟨_, rfl, rfl, rfl⟩
  have ready : Undisturbed K w v := kept₄.trans (.of_same files mark)
  rcases BuildRequest.assemble_ends ended with ⟨⟨e, rfl⟩, files', mark'⟩ |
    ⟨resources, archive, filename, published, u, assembled, named, files', mark', outcome, rfl⟩
  · exact .inl ⟨⟨.assembling, e, told⟩,
      ready.trans (.of_same (same.trans files') (marks.trans mark'))⟩
  · refine .inr ⟨⟨d, target, handle, artifact, block, resources, archive,
      request.outputDir project / Path.ofText filename⟩, published, u, v', ?_, ?_, outcome, same,
      marks, ?_⟩
    · refine ⟨⟨project, given⟩, found, key, signs, assembled, ?_,
        Archive.isArchiveName_of_filename named _⟩
      unfold BuildRequest.outputPath?
      rw [given, found]
      simp only
      rw [named]
    · exact ready.trans (.of_same files' mark')
    · rw [told]
      cases published <;> rfl

/-- A build that succeeds has prepared what it gives, and the file of its archive is in the output
path. -/
theorem build_succeeds {K : Tree → Tree → Prop} [IsPreorder Tree K] {built : BuildResult}
    (spares : machine.Spares K)
    (h : (build machine matrix request).outcome w = (.ok built, w')) :
    ∃ s bytes, request.Prepares matrix K w s ∧ built = s.result ∧
      s.archive.toBytes = .ok bytes ∧ w'.files.read s.path = .ok bytes := by
  rcases build_ends spares h with ⟨⟨stage, fault, failed⟩, _⟩ |
    ⟨s, published, v, v', prepared, _, outcome, files, _, told⟩
  · exact absurd failed (by simp)
  cases published with
  | error e => exact absurd told (by simp [Except.map, mapError_error])
  | ok _ =>
      obtain rfl : built = s.result := Except.ok.inj told
      obtain ⟨bytes, written, stored⟩ := Archive.read_of_publish outcome
      exact ⟨s, bytes, prepared, rfl, written, files ▸ stored⟩

/-! ## All or nothing -/

namespace BuildRequest

/-- The paths that a build writes to. -/
def Writes (request : BuildRequest) (matrix : Matrix) (w : Workspace) (p : Path) : Prop :=
  request.outputPath? matrix w = some p ∨ request.ledger = some p

/-- Where a build can be all or nothing: a file system as it should be, in which the output path and
the ledger have places of their own that the commands of the machine leave alone. -/
structure IsPlaced (request : BuildRequest) (machine : Machine) (matrix : Matrix) (w : Workspace) :
    Prop where
  sound : w.files.IsSound
  mark : w.HasPlainMark
  spared : machine.Spares (Keeps (request.Writes matrix w))
  settled : ∀ p, request.Writes matrix w p → w.files.IsSettled p
  short : ∀ p, request.ledger = some p → HasShortNames p
  apart : ∀ out p, request.outputPath? matrix w = some out → request.ledger = some p →
    ¬ w.files.placeOf p <+: w.files.placeOf out ∧ ¬ w.files.placeOf out <+: w.files.placeOf p

theorem IsPlaced.canPublish (placed : request.IsPlaced machine matrix w) {s : Shipment}
    {K : Tree → Tree → Prop} (prepared : request.Prepares matrix K w s) {v : Workspace}
    (kept : Undisturbed (Keeps (request.Writes matrix w)) w v) :
    Archive.CanPublish v s.path request.ledger where
  sound := kept.2.sound placed.sound
  mark := ⟨kept.1 ▸ placed.mark.slash, kept.1 ▸ placed.mark.point⟩
  name := prepared.name
  settled := kept.2.settled _ (.inl prepared.output) (placed.settled _ (.inl prepared.output))
  ledger p there := by
    rw [kept.2.placeOf, kept.2.placeOf]
    exact ⟨kept.2.settled p (.inr there) (placed.settled p (.inr there)), placed.short p there,
      placed.apart s.path p prepared.output there⟩

/-- A release that could not be taken back: it is in the ledger in the place of an entry that cannot
be written, or a directory on the way to the output path is where the ledger is written first. -/
def LeavesRelease (request : BuildRequest) (matrix : Matrix) (w w' : Workspace) (p : Path) : Prop :=
  ¬ Ledger.Agree (Ledger.loaded p w.files) (Ledger.loaded p w'.files) ∧
  ∃ project d, (request.resolve.outcome w).1 = .ok (project, d) ∧
    Ledger.IsReleased d (Ledger.loaded p w.files) (Ledger.loaded p w'.files) ∧
    (Ledger.HoldsUnwritable d (Ledger.loaded p w.files) ∨
      ∃ out, request.outputPath? matrix w = some out ∧
        IsAbove (w.files.placeOf (p.temporary w.mark)) (w.files.placeOf out))

end BuildRequest

/-- A build succeeds with its archive in the output path and its release in the ledger, or it fails
and leaves the output path, the ledger and the staging directories as they were; only a release that
cannot be taken back stays in the ledger. -/
theorem build_all_or_nothing {result : Except Fault BuildResult}
    (placed : request.IsPlaced machine matrix w)
    (h : (build machine matrix request).outcome w = (result, w')) :
    (∃ built, result = .ok built ∧ request.outputPath? matrix w = some built.path ∧
        (∃ bytes, built.archive.toBytes = .ok bytes ∧ w'.files.read built.path = .ok bytes) ∧
        ∀ p, request.ledger = some p → Ledger.IsReleased built.descriptor
          (Ledger.loaded p w.files) (Ledger.loaded p w'.files)) ∨
      (∃ stage fault, result = .error (BuildStage.failed stage fault)) ∧
        (∀ out, request.outputPath? matrix w = some out →
          w'.files.found? out = w.files.found? out) ∧
        (∀ p, request.ledger = some p →
          Ledger.Agree (Ledger.loaded p w.files) (Ledger.loaded p w'.files) ∨
            request.LeavesRelease matrix w w' p) ∧
        ∀ l, IsStage l → w'.files.node? l = some .directory →
          w.files.node? l = some .directory ∨
            ∃ p, request.Writes matrix w p ∧ IsAbove l (w.files.placeOf p) := by
  rcases build_ends placed.spared h with ⟨failed, kept⟩ |
    ⟨s, published, v, v', prepared, kept, outcome, files, mark, rfl⟩
  · -- Nothing was published, so all is as it was.
    refine .inr ⟨failed, fun out here => kept.2.found out (.inl here), ?_, ?_⟩
    · intro p there
      left
      unfold Ledger.loaded
      rw [kept.2.lookup_eq (.inr there) (placed.short p there)]
      exact Ledger.Agree.refl _
    · intro l stage there
      exact .inl (kept.2.stages l stage there)
  have can := placed.canPublish prepared kept
  obtain ⟨key, bytes, _, _, _, checked, _, _⟩ := Signing.sign_eq_ok prepared.signed
  have loaded : ∀ p, request.ledger = some p →
      Ledger.loaded p v.files = Ledger.loaded p w.files := by
    intro p there
    unfold Ledger.loaded
    rw [kept.2.lookup_eq (.inr there) (placed.short p there)]
  cases published with
  | ok _ =>
      refine .inl ⟨s.result, rfl, prepared.output, ?_, ?_⟩
      · rw [files]
        exact Archive.read_of_publish outcome
      · intro p there
        rcases Archive.publish_ledger can there checked outcome with ⟨_, released⟩ | ⟨⟨e, failed⟩, _⟩
        · rw [files, ← loaded p there]
          exact released
        · exact absurd failed (by simp)
  | error e =>
      refine .inr ⟨⟨_, e, rfl⟩, ?_, ?_, ?_⟩
      · intro out here
        obtain rfl : s.path = out := Option.some.inj (prepared.output.symm.trans here)
        rw [files, Archive.found_of_failed_publish can outcome]
        exact kept.2.found _ (.inl here)
      · intro p there
        rcases Archive.publish_ledger can there checked outcome with ⟨failed, _⟩ | ⟨_, agree | stays⟩
        · exact absurd failed (by simp)
        · rw [files, ← loaded p there]
          exact .inl agree
        · obtain ⟨released, cause⟩ := stays
          obtain ⟨project, resolved⟩ := prepared.resolved
          rw [loaded p there] at released cause
          rw [kept.1, kept.2.placeOf, kept.2.placeOf] at cause
          by_cases agree : Ledger.Agree (Ledger.loaded p w.files) (Ledger.loaded p w'.files)
          · exact .inl agree
          · refine .inr ⟨agree, project, s.descriptor, resolved, files ▸ released, ?_⟩
            exact cause.imp_right fun above => ⟨s.path, prepared.output, above⟩
      · intro l stage there
        rw [files] at there
        rcases (Archive.publish_leaves can outcome).files.made l there with before | above | above
        · exact .inl (kept.2.stages l stage before)
        · rw [kept.2.placeOf] at above
          exact .inr ⟨s.path, .inl prepared.output, above⟩
        · obtain ⟨p, here, above⟩ := above
          rw [kept.2.placeOf] at above
          exact .inr ⟨p, .inr here, above⟩

end ModulePackaging

/-! ## A project with one package -/

namespace ModulePackaging.Sample

open Files Files.Tree Action

/-- The project file of a package whose module is compiled already. -/
def project (resources : List Json) : Json := .obj [
  ("format", .str "simpack-build"),
  ("version", .int 0),
  ("package", .obj [
    ("name", .str "demo"),
    ("numeric_id", .int 7),
    ("version", .str "1.0.0"),
    ("host_triple", .str "x86_64-linux")]),
  ("artifact", .str "m.so"),
  ("resources", .arr resources)]

/-- A directory with the project, its module of one byte, and what else is in it. -/
def workspace (resources : List Json) (others : List (Location × Node)) : Workspace where
  files := {
    home := ["p"]
    nodes :=
      (["p"], .directory) ::
      (["p", "simpack.json"],
        .file ((project resources).storedBytes.toOption.getD []) defaultMode) ::
      (["p", "m.so"], .file [0x4D] defaultMode) :: others }
  log := []
  mark := "1"

/-- One version of the host. -/
def matrix : Matrix := ⟨[⟨⟨7, 0, 0, [], []⟩, ["haps"], false, true, []⟩]⟩

/-- A machine on which all commands end well and change nothing. -/
def machine : Machine := fun _ tree => .ok (⟨0, [], []⟩, tree)

/-- The ledger of the releases. -/
def ledger : Path := Path.ofText "ledger.json"

/-- Where the archive goes to. -/
def output : Path := Path.ofText "dist/demo-7-1.0.0-api7.0.0-linux64.spkg"

/-- The build of the project, recorded in the ledger. -/
def request : BuildRequest where
  source := Path.ofText "."
  target := .str "7.0.0"
  key := .handle (.key .zero)
  overrides := []
  strict := false
  toolchain := none
  outDir := none
  overwrite := false
  ledger := some ledger
  extra := []

/-- Where the build can be all or nothing. -/
theorem isPlaced {w : Workspace} (sound : w.files.IsSound) (home : w.files.home = (["p"] : Location))
    (mark : w.mark = "1") (there : request.outputPath? matrix w = some output) :
    request.IsPlaced machine matrix w where
  sound := sound
  mark := ⟨mark ▸ by decide, mark ▸ by decide⟩
  spared := by
    intro _ tree _ _ ran
    obtain ⟨_, rfl⟩ := Prod.mk.inj (Except.ok.inj ran)
    exact Keeps.refl _ tree
  settled := by
    rintro p (here | here)
    · obtain rfl := Option.some.inj (there.symm.trans here)
      exact .inr (by decide)
    · obtain rfl := Option.some.inj here
      exact .inr (by decide)
  short := by
    intro p here
    obtain rfl := Option.some.inj here
    unfold HasShortNames
    decide
  apart := by
    intro out p toOut toLedger
    obtain rfl := Option.some.inj (there.symm.trans toOut)
    obtain rfl := Option.some.inj toLedger
    rw [placeOf, placeOf, startOf, startOf, home]
    decide

set_option maxRecDepth 100000 in
/-- The project alone is built, into an archive without resources that holds its own signature. -/
theorem gives_project :
    (build machine matrix request).gives (workspace [] []) (fun built w' =>
      let block := built.archive.signature
      decide built.archive.IsNarrow && built.archive.resources.isEmpty &&
        passes (w'.files.read built.path) (fun bytes => !Zip.seemsWide bytes) &&
        verifySignature block.algorithm block.identity block.digest block.signature) = true := by
  decide +kernel

set_option maxRecDepth 100000 in
/-- The build of the project alone leaves the archive and the release. -/
theorem build_all_or_nothing_of_project :
    ∃ built w', (build machine matrix request).outcome (workspace [] []) = (.ok built, w') ∧
      (∃ bytes, built.archive.toBytes = .ok bytes ∧ w'.files.read built.path = .ok bytes) ∧
      Ledger.IsReleased built.descriptor (Ledger.loaded ledger (workspace [] []).files)
        (Ledger.loaded ledger w'.files) := by
  have there : request.outputPath? matrix (workspace [] []) = some output := by decide +kernel
  obtain ⟨built, w', outcome, _⟩ := exists_of_gives gives_project
  have placed := isPlaced (isSound_of_nodes (by decide +kernel) (by decide +kernel)) rfl rfl there
  rcases build_all_or_nothing placed outcome with ⟨_, same, _, stored, released⟩ | ⟨⟨_, _, failed⟩, _⟩
  · obtain rfl := Except.ok.inj same
    exact ⟨built, w', outcome, stored, released ledger rfl⟩
  · exact absurd failed (by simp)

/-- The project where its archive is in place and the ledger has an older release, whose build is
named by a lone surrogate. -/
def crowded : Workspace := workspace [] [
  (["p", "ledger.json"], .file ("\x7b\"format\":\"simpack-ledger\",\"version\":0,\"releases\":\x7b\"7\":" ++
    "\x7b\"name\":\"demo\",\"version\":\"0.9.0\",\"build_id\":\"\\ud800\"\x7d\x7d\x7d").toUTF8.toList
    defaultMode),
  (["p", "dist"], .directory),
  (["p", "dist", "demo-7-1.0.0-api7.0.0-linux64.spkg"], .file [] defaultMode)]

set_option maxRecDepth 100000 in
/-- The build that fails because its archive is in place leaves another ledger. -/
theorem crowded_not_agree :
    request.IsPlaced machine matrix crowded ∧
      ∃ e w', (build machine matrix request).outcome crowded = (.error e, w') ∧
        ¬ Ledger.Agree (Ledger.loaded ledger crowded.files) (Ledger.loaded ledger w'.files) := by
  have there : request.outputPath? matrix crowded = some output := by decide +kernel
  refine ⟨isPlaced (isSound_of_nodes (by decide +kernel) (by decide +kernel)) rfl rfl there, ?_⟩
  have run : (build machine matrix request).fails crowded (fun w' =>
      passes (Ledger.loaded ledger crowded.files) fun before =>
        passes (Ledger.loaded ledger w'.files) fun after =>
          decide (after.find? 7 ≠ before.find? 7)) = true := by
    decide +kernel
  obtain ⟨e, w', outcome, run⟩ := exists_of_fails run
  obtain ⟨before, read, run⟩ := exists_of_passes run
  obtain ⟨after, again, other⟩ := exists_of_passes run
  refine ⟨e, w', outcome, ?_⟩
  rw [read, again]
  exact fun agree => of_decide_eq_true other (agree 7)

end ModulePackaging.Sample
