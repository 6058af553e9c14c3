import ModulePackaging.Archive.Layout
import ModulePackaging.HostApi.Entry
import ModulePackaging.Signing.Block
import ModulePackaging.Zip.Format

/-!
# Package archives

An archive holds a module, its resources and a manifest that describes both: the descriptor, the
version of the host it is built for, the size and the digest of every member, and the signature.
Assembling lays the members out and writes the manifest; nothing in it depends on the order in which
the resources come.
-/

namespace ModulePackaging

/-- A file that goes with a module, at its path below the directory of resources. -/
structure Resource where
  path : Text
  data : Bytes
  deriving DecidableEq

/-- What a manifest lists of a member. -/
structure ListedMember where
  path : Text
  size : Nat
  digest : Text
  isModule : Bool

/-- A package: what it says about itself, the compiled module, the signature, the resources in the
order of their paths, the version of the host, and the manifest as it is stored. -/
structure Archive where
  descriptor : Draft
  artifact : Bytes
  signature : SignatureBlock
  resources : List Resource
  hostApi : Option RecordedApi
  manifest : Bytes

namespace ListedMember

/-- What is listed of a member with some content. -/
def of (path : Text) (content : Bytes) (isModule : Bool) : ListedMember :=
  ⟨path, content.length, Sha256.label content, isModule⟩

/-- What is listed, as an object. -/
def toJson (m : ListedMember) : Json := .obj [
  ("path", .str m.path),
  ("size", .int m.size),
  ("sha256", .str m.digest),
  ("kind", .str (if m.isModule then "module" else "resource"))]

end ListedMember

namespace Draft

variable (draft : Draft)

/-- The host that a draft is for. -/
def host : Except Fault Host :=
  match draft.value .hostTriple with
  | .str triple => (Host.ofTriple triple).mapError .ofHost
  | value => .error (.missingPart ("'" ++ value.kindName ++ "' object has no attribute 'strip'"))

/-- The path of the module in the archive of a draft. -/
def modulePath : Except Fault Text := do
  let host ← draft.host
  return host.key ++ "/lib/" ++ host.libraryFilename (draft.value .name).inMessage

/-- A field as part of a name, unless a number in it has too many digits to be written. -/
def shown (field : Field) : Except Fault Text :=
  if (draft.value field).holdsLong then .error (.badValue Decimal.longMessage)
  else .ok (draft.value field).inMessage

/-- The file name of the archive for a version of the host. -/
def archiveFilename (api : Text) : Except Fault Text := do
  let host ← draft.host
  let name ← draft.shown .name
  let numericId ← draft.shown .numericId
  let version ← draft.shown .version
  return name ++ "-" ++ numericId ++ "-" ++ version ++ "-api" ++ api ++ "-" ++ host.key ++
    Layout.archiveSuffix

end Draft

namespace Resource

/-- A resource at the normal form of its path. -/
def normalize (r : Resource) : Except LayoutConflict Resource := do
  return { r with path := ← Layout.normalize r.path }

/-- Resources in the order of their paths. -/
def sorted (resources : List Resource) : List Resource :=
  sortedBy (fun a b => decide (a.path ≤ b.path)) resources

/-- What is listed of a resource. -/
def listed (r : Resource) : ListedMember := .of (Layout.resourcePath r.path) r.data false

end Resource

namespace Archive

/-- The name of the format of manifests. -/
def formatName : Text := "simpack-manifest"

/-- The version of the format of manifests. -/
def formatVersion : Int := 1

/-- The manifest of an archive. -/
def manifestJson (descriptor : Json) (listing : List ListedMember) (signature : SignatureBlock)
    (hostApi : Option ApiEntry) : Json :=
  let inOrder := sortedBy (fun a b => decide (a.path ≤ b.path)) listing
  let api : Json :=
    match hostApi with
    | some entry => entry.toJson
    | none => .null
  .obj [
    ("format", .str formatName),
    ("format_version", .int formatVersion),
    ("descriptor", descriptor),
    ("host_api", api),
    ("resources", .arr (inOrder.map ListedMember.toJson)),
    ("signature", signature.toJson)]

/-- What is listed of a module and its resources. -/
def listing (modulePath : Text) (artifact : Bytes) (resources : List Resource) :
    List ListedMember :=
  .of modulePath artifact true :: resources.map Resource.listed

/-- Checks that the paths of a module and its resources can be together. -/
def checkLayout (modulePath : Text) (resources : List Resource) : Except LayoutConflict Unit := do
  Layout.check (resources.map Resource.path)
  Layout.check (Layout.manifestPath :: modulePath ::
    resources.map fun r => Layout.resourcePath r.path)

/-- Lays out an archive. -/
def assemble (descriptor : Draft) (artifact : Bytes) (signature : SignatureBlock)
    (resources : List Resource) (hostApi : Option ApiEntry) : Except Fault Archive := do
  if artifact.isEmpty then throw (.problem (.of .integrity "artifact is empty"))
  let conflict (e : LayoutConflict) : Fault := .problem e.toProblem
  let resources ← (resources.mapM Resource.normalize).mapError conflict
  let modulePath ← descriptor.modulePath
  (checkLayout modulePath resources).mapError conflict
  let json ← descriptor.toJson
  let manifest := manifestJson json (listing modulePath artifact resources) signature hostApi
  let bytes ← manifest.storedBytes
  return ⟨descriptor, artifact, signature, Resource.sorted resources,
    hostApi.map ApiEntry.recorded, bytes⟩

variable (archive : Archive)

/-- The path of the module. -/
def modulePath : Except Fault Text := archive.descriptor.modulePath

/-- All members but the manifest, in the order of their paths. -/
def members : Except Fault (List Zip.Member) := do
  let module ← archive.modulePath
  let all : List Zip.Member :=
    ⟨module, archive.artifact⟩ ::
      archive.resources.map fun r => ⟨Layout.resourcePath r.path, r.data⟩
  return sortedBy (fun a b => decide (a.name ≤ b.name)) all

/-- The file of an archive: a container with the manifest first. -/
def toBytes : Except Fault Bytes := do
  let members := ⟨Layout.manifestPath, archive.manifest⟩ :: (← archive.members)
  if members.any Zip.Member.isLongNamed then throw (.container .nameTooLong)
  return Zip.write members

/-- Whether the signature belongs to the artifact and the descriptor, and the signer is trusted. -/
def isGenuine (trusted : Option (List Bytes)) : Bool :=
  Signing.verifyBlock archive.artifact archive.descriptor archive.signature trusted

/-- What a signature that does not hold leaves in the log. -/
def failureRecord : LogRecord :=
  ⟨.warning, "simpack.sign", "signature verification failed for " ++
    (archive.descriptor.value .name).inMessage ++ " " ++
    (archive.descriptor.value .version).inMessage⟩

end Archive

end ModulePackaging
