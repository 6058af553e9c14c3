import ModulePackaging.Archive.Commit
import ModulePackaging.Build.Stage
import ModulePackaging.Descriptor.Resolve
import ModulePackaging.HostApi.Releases
import ModulePackaging.Ledger
import ModulePackaging.Signing.KeyFile
import ModulePackaging.Toolchain

/-!
# Builds

A build makes the archive of one package for one version of the host: it resolves the metadata,
finds the version in the matrix, has the module compiled, signs it, lays the archive out and commits
it. The archive comes last; a release that was recorded before it is taken back if the archive
cannot be committed.
-/

namespace ModulePackaging

/-- Where the signing key of a build comes from. -/
inductive KeySource
  | handle (h : KeyHandle)
  | file (p : Path)

/-- What is to be built. The target is whatever was asked for; it need not be a version. -/
structure BuildRequest where
  source : Path
  target : Json
  key : KeySource
  overrides : Members
  strict : Bool
  toolchain : Option Toolchain
  outDir : Option Path
  overwrite : Bool
  ledger : Option Path
  extra : List Resource

/-- A build that succeeded. -/
structure BuildResult where
  descriptor : Descriptor
  target : Target
  archive : Archive
  path : Path

namespace KeySource

/-- The key of a source, loaded if it is in a file. -/
def load : KeySource → Action KeyHandle
  | handle h => pure h
  | file p => do return .key (← KeyFile.load p none)

end KeySource

namespace Project

/-- The files that go with the module of a project. -/
def readResources (project : Project) : Action (List Resource) :=
  project.resources.mapM fun spec => do
    if ← Action.ask (·.isFile spec.source) then
      return ⟨spec.path, ← Action.ask (·.read spec.source)⟩
    throw (.problem (.atPath .integrity "resource source file not found" spec.source.toText))

end Project

namespace Archive

/-- Records the release in a ledger, if there is one, and commits the archive. The record is taken
back if the archive cannot be committed. -/
def publish (archive : Archive) (d : Descriptor) (out : Path) (overwrite : Bool) :
    Option Path → Action Unit
  | none => archive.commit out overwrite
  | some ledger => do
    let prior ← Ledger.record ledger d
    tryCatch (archive.commit out overwrite) fun fault => do
      Ledger.rollback ledger d prior
      throw fault

end Archive

namespace BuildRequest

variable (request : BuildRequest)

/-- The name of a build in the log. -/
def label : Text := request.source.toText ++ "@" ++ request.target.inMessage

/-- The project and its descriptor, checked against the ledger. -/
def resolve : Action (Project × Descriptor) := do
  let project ← Project.load request.source
  let resolved := Metadata.resolve project.package request.overrides request.strict
  let d ← Action.ofExcept (fun e => .problem e.toProblem) resolved
  match request.ledger with
  | some ledger => Ledger.checkIn ledger d
  | none => pure ()
  return (project, d)

/-- What the target resolves to. -/
def findTarget (matrix : Matrix) : Action Target := do
  let target ← Action.ofExcept MatrixError.toFault (matrix.resolveJson request.target)
  Action.noteAll target.records
  return target

/-- The bytes of the compiled module. -/
def compile (machine : Machine) (project : Project) (d : Descriptor) (target : Target) :
    Action Bytes := do
  let toolchain ←
    match request.toolchain with
    | some toolchain => pure toolchain
    | none => Action.ofExcept id (Toolchain.ofProject project)
  let artifact ← toolchain.compile machine ⟨project.sourceDir, d, target.entry⟩
  Action.ask (·.read artifact)

/-- Signs the compiled module. -/
def sign (artifact : Bytes) (d : Descriptor) : Action SignatureBlock := do
  let (d, block) ← Action.ofExcept id (Signing.sign artifact d.draft (← request.key.load))
  Action.note (Signing.record d block)
  return block

/-- The directory that archives go to. -/
def outputDir (project : Project) : Path := request.outDir.getD (project.sourceDir / "dist")

/-- Lays the archive out and publishes it. -/
def assemble (project : Project) (d : Descriptor) (target : Target) (artifact : Bytes)
    (block : SignatureBlock) : Action (Archive × Path) := do
  let resources := (← project.readResources) ++ request.extra
  let archive ← Action.ofExcept id
    (Archive.assemble d.draft artifact block resources (some target.entry))
  let filename ← Action.ofExcept id (d.draft.archiveFilename target.requested.toText)
  let out := request.outputDir project / Path.ofText filename
  archive.publish d out request.overwrite request.ledger
  return (archive, out)

end BuildRequest

namespace BuildResult

/-- What a build leaves in the log. -/
def record (result : BuildResult) : LogRecord :=
  ⟨.info, "simpack.build", "built " ++ result.descriptor.name ++ " " ++ result.descriptor.version ++
    " for host API " ++ result.target.entry.version.toText ++ " -> " ++ result.path.toText⟩

end BuildResult

/-- Builds an archive with a machine and a matrix. -/
def build (machine : Machine) (matrix : Matrix) (request : BuildRequest) :
    Action BuildResult := do
  let stage {α : Type} (s : BuildStage) (work : Action α) : Action α := s.run request.label work
  let (project, d) ← stage .resolving request.resolve
  let target ← stage .matrixCheck (request.findTarget matrix)
  let artifact ← stage .compiling (request.compile machine project d target)
  let block ← stage .signing (request.sign artifact d)
  let (archive, path) ← stage .assembling (request.assemble project d target artifact block)
  Action.note (BuildStage.done.entryRecord request.label)
  let result : BuildResult := ⟨d, target, archive, path⟩
  Action.note result.record
  return result

end ModulePackaging
