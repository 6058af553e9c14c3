import ModulePackaging.Proofs.Build.Alongside
import ModulePackaging.Proofs.Project.Absolute

/-!
# What a build reads of a project

All paths of a project are below its source directory, whatever its file says. The resources are
read from these paths. The compiled module is looked for in the source directory again: it is below
that directory joined to itself, which is the directory if it is absolute, and still inside if no
name in it leads back. A relative directory that leads back is left that way.
-/

namespace ModulePackaging

open Files Files.Tree Action

variable {machine : Machine} {paths others : Path → Prop} {project : Project}
  {dir source : Path} {w w' : Workspace}

/-! ## The paths of a project -/

namespace Project

/-- The paths that the file of a project names: that of the module, and those of the resources. -/
def namedPaths (project : Project) : List Path :=
  project.artifact.toList ++ project.resources.map ResourceSpec.source

theorem isBelow_of_resourceOf {index : Nat} {value : Json} {spec : ResourceSpec}
    (h : resourceOf dir index value = .ok spec) : dir.IsBelow spec.source := by
  unfold resourceOf at h
  split at h
  · obtain ⟨p, within, h⟩ := bind_eq_ok.mp h
    rw [← Except.ok.inj h]
    exact isBelow_of_inside within
  · split at h
    · obtain ⟨p, within, h⟩ := bind_eq_ok.mp h
      rw [← Except.ok.inj h]
      exact isBelow_of_inside within
    · exact absurd h (by simp)
  · exact absurd h (by simp)

theorem isBelow_of_resourcesOf {members : Members} {specs : List ResourceSpec}
    (h : resourcesOf dir members = .ok specs) : ∀ spec ∈ specs, dir.IsBelow spec.source := by
  unfold resourcesOf at h
  split at h
  · intro spec member
    obtain ⟨_, _, given⟩ := exists_of_mapM h spec member
    exact isBelow_of_resourceOf given
  · exact absurd h (by simp)

/-- The paths of a project are below the directory that it was read for. -/
theorem isBelow_of_ofBytes {bytes : Bytes} (h : ofBytes dir bytes = .ok project) :
    ∀ p ∈ project.namedPaths, dir.IsBelow p := by
  intro p member
  rcases List.mem_append.mp member with artifact | resource
  · exact artifact_of_ofBytes h (Option.mem_toList.mp artifact)
  · obtain ⟨_, members, _, read⟩ := parts_of_ofBytes h
    obtain ⟨spec, inside, rfl⟩ := List.mem_map.mp resource
    exact isBelow_of_resourcesOf read spec inside

end Project

/-! ## Compiling -/

namespace Toolchain

/-- The bytes of a compiled module, where it is found. -/
def fetch (request : CompileRequest) (artifact : Path) : Action Bytes := do
  let path ← found request artifact
  Action.ask (·.read path)

theorem looksAt_fetch {request : CompileRequest} {artifact : Path}
    (here : paths (request.sourceDir / artifact)) : LooksAt paths (fetch request artifact) := by
  unfold fetch found
  rw [bind_assoc]
  refine (LooksAt.isFile here).bind fun isFile => ?_
  cases isFile with
  | true => exact LooksAt.read here
  | false => exact LooksAt.throw _

/-- A command runs first; then its module is found and read. -/
theorem read_command (request : CompileRequest) (words : List Text) (artifact : Path) :
    (do
      let path ← (command words artifact).compile machine request
      Action.ask (·.read path)) = (do
      runCommand machine request words
      fetch request artifact) :=
  bind_assoc _ _ _

end Toolchain

namespace BuildRequest

variable {request : BuildRequest} {d : Descriptor} {target : Target}

/-- A build that looks at some paths only while it compiles, but for what the command of its project
does before. -/
def CompilesAt (paths : Path → Prop) (request : BuildRequest) (machine : Machine)
    (project : Project) (d : Descriptor) (target : Target) : Prop :=
  ∃ rest, LooksAt paths rest ∧
    (request.compile machine project d target = rest ∨
      ∃ words, project.command = some words ∧ request.compile machine project d target = (do
        Toolchain.runCommand machine ⟨project.sourceDir, d, target.entry⟩ words
        rest))

theorem CompilesAt.mono (compiles : request.CompilesAt paths machine project d target)
    (more : ∀ p, paths p → others p) : request.CompilesAt others machine project d target := by
  obtain ⟨rest, looks, parts⟩ := compiles
  exact ⟨rest, looks.mono more, parts⟩

/-- A build with the toolchain of its project looks at the artifact, joined to the source
directory. -/
theorem compilesAt_artifact (own : request.toolchain = none)
    (here : ∀ artifact, project.artifact = some artifact → paths (project.sourceDir / artifact)) :
    request.CompilesAt paths machine project d target := by
  unfold CompilesAt
  rw [compile_eq, chosen, own]
  unfold Toolchain.ofProject
  cases named : project.artifact with
  | none => exact ⟨_, LooksAt.throw _, .inl rfl⟩
  | some artifact =>
      have looks : LooksAt paths
          (Toolchain.fetch ⟨project.sourceDir, d, target.entry⟩ artifact) :=
        Toolchain.looksAt_fetch (here artifact named)
      cases project.command with
      | none => exact ⟨_, looks, .inl rfl⟩
      | some words => exact ⟨_, looks, .inr ⟨words, rfl, Toolchain.read_command _ words artifact⟩⟩

end BuildRequest

/-- The paths of a project that is loaded are below its source directory: each goes on from it by
plain names. So its resources are read from inside. With the toolchain of the project, a module is
found and read inside of the directory joined to itself, which is inside of the directory if that is
absolute or no name in it leads back. -/
theorem Project.load_stays_inside (loaded : (load source).outcome w = (.ok project, w')) :
    project.sourceDir = (fileAt w.files source).parent ∧
    (∀ p ∈ project.namedPaths, project.sourceDir.IsBelow p) ∧
    LooksAt project.sourceDir.Encloses project.readResources ∧
    ∀ (machine : Machine) (request : BuildRequest) (d : Descriptor) (target : Target),
      request.toolchain = none →
      request.CompilesAt (project.sourceDir / project.sourceDir).Encloses machine project d
        target ∧
      (project.sourceDir.isAbsolute = true ∨ back ∉ project.sourceDir.parts →
        request.CompilesAt project.sourceDir.Encloses machine project d target) := by
  obtain ⟨bytes, _, read⟩ := load_gives loaded
  have home := (parts_of_ofBytes read).1
  have below : ∀ p ∈ project.namedPaths, project.sourceDir.IsBelow p :=
    home ▸ isBelow_of_ofBytes read
  have resources : ∀ spec ∈ project.resources, project.sourceDir.Encloses spec.source := by
    intro spec member
    have named : spec.source ∈ project.resources.map ResourceSpec.source :=
      List.mem_map_of_mem member
    exact (below _ (List.mem_append_right _ named)).encloses
  refine ⟨home, below, looksAt_readResources resources, fun machine request d target own => ?_⟩
  have compiles : request.CompilesAt (project.sourceDir / project.sourceDir).Encloses machine
      project d target := by
    refine BuildRequest.compilesAt_artifact own fun artifact named => ?_
    have member : artifact ∈ project.namedPaths :=
      List.mem_append_left _ (Option.mem_toList.mpr named)
    exact ((below artifact member).join project.sourceDir).encloses
  refine ⟨compiles, fun safe => compiles.mono fun p => ?_⟩
  exact (Path.Encloses.join_self safe).trans

end ModulePackaging

namespace ModulePackaging.Sample

open Files Files.Tree Action

/-- A directory with a project in it, whose file names resources with backslashes, dots and repeated
separators. -/
def mixedNames : Workspace where
  files := {
    home := ["p"]
    nodes := [
      (["p"], .directory),
      (["p", "src"], .directory),
      (["p", "src", "simpack.json"],
        .file ((project [
          .str "data\\.\\a.txt",
          .obj [("path", .str "d"), ("source", .str "./c//d")]]).storedBytes.toOption.getD [])
        defaultMode)] }
  log := []
  mark := "1"

set_option maxRecDepth 100000 in
/-- The project with these names stays inside its directory, and so do builds of it. -/
theorem load_stays_inside_of_mixed :
    ∃ loaded w', (Project.load (Path.ofText "src")).outcome mixedNames = (.ok loaded, w') ∧
      loaded.namedPaths =
        [Path.ofText "src/m.so", Path.ofText "src/data/a.txt", Path.ofText "src/c/d"] ∧
      (∀ p ∈ loaded.namedPaths, loaded.sourceDir.IsBelow p) ∧
      LooksAt loaded.sourceDir.Encloses loaded.readResources ∧
      ∀ (d : Descriptor) (target : Target),
        request.CompilesAt loaded.sourceDir.Encloses machine loaded d target := by
  have succeeds : (Project.load (Path.ofText "src")).gives mixedNames (fun loaded _ =>
      decide (loaded.sourceDir = Path.ofText "src" ∧ loaded.namedPaths =
        [Path.ofText "src/m.so", Path.ofText "src/data/a.txt", Path.ofText "src/c/d"])) = true := by
    decide +kernel
  obtain ⟨loaded, w', ended, found⟩ := exists_of_gives succeeds
  obtain ⟨dir, names⟩ := of_decide_eq_true found
  obtain ⟨_, below, resources, compiles⟩ := Project.load_stays_inside ended
  have forward : back ∉ loaded.sourceDir.parts := by
    rw [dir]
    decide
  exact ⟨loaded, w', ended, names, below, resources,
    fun d target => (compiles machine request d target rfl).2 (.inr forward)⟩

/-- A project in the parent of the current directory, with its module, and another file of that name
in the directory above it. -/
def climbing : Workspace where
  files := {
    home := ["a", "b", "c"]
    nodes := [
      (["a"], .directory),
      (["a", "b"], .directory),
      (["a", "b", "c"], .directory),
      (["a", "b", "simpack.json"],
        .file ((project []).storedBytes.toOption.getD []) defaultMode),
      (["a", "b", "m.so"], .file [0x4D] defaultMode),
      (["a", "m.so"], .file [0x4F] defaultMode)] }
  log := []
  mark := "1"

/-- The build of the project in the parent. -/
def parentRequest : BuildRequest :=
  { request with source := Path.ofText "..", outDir := some (Path.ofText "out"), ledger := none }

set_option maxRecDepth 100000 in
/-- The build of the project in the parent signs a file outside of it, and not the module that the
project names, which is below its directory. -/
theorem climbing_signs_outside :
    ∃ loaded built w' w'',
      (Project.load parentRequest.source).outcome climbing = (.ok loaded, w') ∧
      loaded.sourceDir = Path.ofText ".." ∧ loaded.artifact = some (Path.ofText "../m.so") ∧
      climbing.files.read (Path.ofText "../m.so") = .ok [0x4D] ∧
      (build machine matrix parentRequest).outcome climbing = (.ok built, w'') ∧
      built.archive.artifact = [0x4F] ∧
      climbing.files.read (Path.ofText "../../m.so") = .ok [0x4F] ∧
      ¬ (Path.ofText "..").Encloses (Path.ofText "../../m.so") := by
  have loads : (Project.load parentRequest.source).gives climbing (fun loaded _ =>
      decide (loaded.sourceDir = Path.ofText ".." ∧
        loaded.artifact = some (Path.ofText "../m.so"))) = true := by
    decide +kernel
  have builds : (build machine matrix parentRequest).gives climbing
      (fun built _ => decide (built.archive.artifact = [0x4F])) = true := by
    decide +kernel
  obtain ⟨loaded, w', ended, named⟩ := exists_of_gives loads
  obtain ⟨built, w'', finished, signed⟩ := exists_of_gives builds
  obtain ⟨dir, artifact⟩ := of_decide_eq_true named
  have outside : ¬ (Path.ofText "..").Encloses (Path.ofText "../../m.so") := by
    intro encloses
    exact absurd (encloses climbing.files) (by decide)
  exact ⟨loaded, built, w', w'', ended, dir, artifact, by rfl, finished,
    of_decide_eq_true signed, by rfl, outside⟩

end ModulePackaging.Sample
