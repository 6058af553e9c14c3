import ModulePackaging.Archive.Basic
import ModulePackaging.Descriptor.Stored
import ModulePackaging.Workspace
import ModulePackaging.Zip.Reader

/-!
# Reading archives

Reads an archive and checks it against its own manifest: every member but the manifest is listed
once in it with its size and its digest, and nothing else is there. Whether the signature holds is a
question of its own.
-/

namespace ModulePackaging.Archive

/-- Why a container is no archive. -/
inductive ReadError
  | notArchive (message path : Text)
  | duplicateMembers (path : Text)
  | noManifest (path : Text)
  | manifestText (message : Text)
  | manifestObject
  | foreignFormat
  | formatVersionKind
  | newerFormat (version : Int)
  | descriptor (e : StoredError)
  | signature (e : BlockError)
  | hostApiObject
  | hostApi (message : Text)
  | listingKind
  | memberWithoutPath
  | memberMissing (path : Text)
  | memberSize (path : Text)
  | memberDigest (path : Text) (expected : Json) (actual : Text)
  | outsideLayout (path : Text)
  | unlisted (names : List Text) (path : Text)
  | noModule (path : Text)

namespace ReadError

/-- The refusal in words. -/
def message : ReadError → Text
  | notArchive message _ => "not a package archive: " ++ message
  | duplicateMembers _ => "archive contains duplicate members"
  | noManifest _ => "archive is missing manifest.json"
  | manifestText message => "manifest is not valid JSON: " ++ message
  | manifestObject => "manifest must be a JSON object"
  | foreignFormat => "not a simpack manifest"
  | formatVersionKind => "manifest format_version must be an integer"
  | newerFormat version =>
    "unsupported manifest format_version " ++ Text.ofInt version ++ " (upgrade simpack?)"
  | descriptor e => "manifest descriptor is invalid: " ++ e.message
  | signature e => e.message
  | hostApiObject => "manifest host_api must be an object or null"
  | hostApi message => "manifest host_api is invalid: " ++ message
  | listingKind => "manifest resources must be an array"
  | memberWithoutPath => "manifest resource entry must have a path"
  | memberMissing _ => "listed member missing from archive"
  | memberSize _ => "member size does not match manifest"
  | memberDigest _ _ _ => "member sha256 does not match manifest"
  | outsideLayout _ => "member outside the archive layout"
  | unlisted names _ => "archive contains unlisted members: " ++ Text.listed names
  | noModule _ => "archive does not contain the module binary"

/-- The path that a refusal is about, if it is about one. -/
def path? : ReadError → Option Text
  | notArchive _ path | duplicateMembers path | noManifest path | unlisted _ path => some path
  | memberMissing path | memberSize path | memberDigest path _ _ => some path
  | outsideLayout path | noModule path => some path
  | descriptor _ | signature _ => none
  | _ => some Layout.manifestPath

/-- The refusal as a problem. -/
def toProblem : ReadError → Problem
  | signature e => e.toProblem
  | descriptor e => .inField .integrity (message (descriptor e)) e.field
  | memberDigest path expected actual =>
    { Problem.atPath .integrity (message (memberDigest path expected actual)) path with
      expectedDigest := expected, actualDigest := some actual }
  | e => { Problem.of .integrity e.message with path := e.path? }

/-- The refusal as a fault. A descriptor that has no fields at all is no matter of integrity. -/
def toFault : ReadError → Fault
  | descriptor (.notObject kind) => StoredError.toFault (.notObject kind)
  | e => .problem e.toProblem

end ReadError

/-- The value of a key; null if it is missing. -/
def valueAt (members : Members) (key : Text) : Json := (members.get? key).getD .null

/-- A refusal as a fault. -/
def refuse {α : Type} (e : ReadError) : Except Fault α := .error e.toFault

/-- The value that the bytes of a manifest hold. -/
def manifestValue (bytes : Bytes) : Except Fault Json :=
  match Utf8.decode bytes with
  | .error e => refuse (.manifestText e.message)
  | .ok t =>
    match Json.read t with
    | .ok value => .ok value
    | .error (.defect what position line column) =>
      refuse (.manifestText (Json.ReadError.defect what position line column).message)
    | .error e => .error (.json e)

/-- The members of a manifest of a known format. -/
def manifestMembers (bytes : Bytes) : Except Fault Members := do
  match ← manifestValue bytes with
  | .obj members =>
    if !(valueAt members "format").equalsText formatName then refuse .foreignFormat
    else match valueAt members "format_version" with
      | .int version =>
        if version > formatVersion then refuse (.newerFormat version) else return members
      | _ => refuse .formatVersionKind
  | _ => refuse .manifestObject

/-- The members of an object; those of a value that counts as absent are none. -/
def presentOr (value : Json) : Json := if value.isTruthy then value else .obj []

/-- The version of the host that a manifest records. -/
def recordedApi (value : Json) : Except Fault (Option RecordedApi) :=
  match value with
  | .null => .ok none
  | .obj members => do
    match Version.parse (valueAt members "version").inMessage with
    | .error e => refuse (.hostApi e.message)
    | .ok version =>
      let flags ← RecordedFlags.ofJson (valueAt members "feature_flags")
      let removed ← RecordedFlags.ofJson (valueAt members "removed_flags")
      return some ⟨version, flags,
        ((Members.get? "min_supported" members).getD (.bool false)).isTruthy,
        ((Members.get? "forward_compatible" members).getD (.bool true)).isTruthy, removed⟩
  | _ => refuse .hostApiObject

/-- The content of the member that an entry of the listing lists, and its path. -/
def listedContent (container : Zip.Container) : Json → Except Fault (Text × Bytes)
  | .obj members =>
    match valueAt members "path" with
    | .str name =>
      match container.read? name with
      | none => refuse (.memberMissing name)
      | some content => do
        let data ← content.mapError .container
        let actual := Sha256.label data
        if !(valueAt members "size").equalsInt data.length then refuse (.memberSize name)
        else if !(valueAt members "sha256").equalsText actual then
          refuse (.memberDigest name (valueAt members "sha256") actual)
        else return (name, data)
    | _ => refuse .memberWithoutPath
  | _ => refuse .memberWithoutPath

/-- What is collected from the listing: the paths, the module and the resources. -/
structure Collected where
  listed : List Text
  artifact : Option Bytes
  resources : List Resource

namespace Collected

/-- What is collected before the first entry. -/
def nothing : Collected := ⟨[], none, []⟩

/-- Adds a member at its place in the layout. -/
def add (c : Collected) (modulePath name : Text) (data : Bytes) : Except Fault Collected :=
  let listed := c.listed ++ [name]
  if name = modulePath then .ok { c with listed, artifact := some data }
  else if name.startsWith Layout.resourcesStart then
    .ok { c with
      listed, resources := c.resources ++ [⟨name.drop Layout.resourcesStart.length, data⟩] }
  else refuse (.outsideLayout name)

end Collected

/-- Collects the members that a listing lists. -/
def collect (container : Zip.Container) (modulePath : Text) (c : Collected) :
    List Json → Except Fault Collected
  | [] => .ok c
  | entry :: rest => do
    let (name, data) ← listedContent container entry
    collect container modulePath (← c.add modulePath name data) rest

/-- The entries of a listing. -/
def listingOf (members : Members) : Except Fault (List Json) :=
  match valueAt members "resources" with
  | .arr items => .ok items
  | _ => refuse .listingKind

/-- Whether a name comes twice. -/
def hasRepetition : List Text → Bool
  | [] => false
  | name :: rest => rest.contains name || hasRepetition rest

/-- The manifest of a container whose members have different names. -/
def manifestOf (container : Zip.Container) (path : Text) : Except Fault Bytes :=
  if hasRepetition container.names then refuse (.duplicateMembers path)
  else match container.read? Layout.manifestPath with
    | none => refuse (.noManifest path)
    | some content => content.mapError .container

/-- The archive in a container; `path` is where the container is. -/
def ofContainer (container : Zip.Container) (path : Text) : Except Fault Archive := do
  let manifest ← manifestOf container path
  let members ← manifestMembers manifest
  let descriptor ← (Descriptor.ofJson (presentOr (valueAt members "descriptor"))).mapError
    fun e => (ReadError.descriptor e).toFault
  let signature ← (SignatureBlock.ofJson (presentOr (valueAt members "signature"))).mapError
    fun e => (ReadError.signature e).toFault
  let hostApi ← recordedApi (valueAt members "host_api")
  let listing ← listingOf members
  let modulePath ← descriptor.draft.modulePath
  let collected ← collect container modulePath .nothing listing
  let unlisted := container.names.filter fun name =>
    name ∉ collected.listed && name != Layout.manifestPath
  if !unlisted.isEmpty then refuse (.unlisted (Text.sorted unlisted) path)
  else match collected.artifact with
    | none => refuse (.noModule modulePath)
    | some artifact =>
      return ⟨descriptor.draft, artifact, signature, Resource.sorted collected.resources, hostApi,
        manifest⟩

/-- Whether a fault says that a file is no container at all. -/
def saysNoContainer (fault : Fault) : Bool :=
  fault.isSystem || match fault with
    | .container e => e.kind == .badContainer
    | _ => false

/-- The container in a file. -/
def containerIn (files : Files.Tree) (p : Path) : Except Fault Zip.Container :=
  let opened : Except Fault Zip.Container := do
    let bytes ← (files.read p).mapError .files
    (Zip.openContainer bytes).mapError .container
  match opened with
  | .ok container => .ok container
  | .error fault =>
    if saysNoContainer fault then refuse (.notArchive fault.message p.toText) else .error fault

/-- The archive in a file. -/
def readFrom (files : Files.Tree) (p : Path) : Except Fault Archive := do
  ofContainer (← containerIn files p) p.toText

/-- Reads an archive. -/
def read (p : Path) : Action Archive := do
  Action.ofExcept id (readFrom (← get).files p)

/-- Checks the signature of an archive; one that does not hold is noted. -/
def verify (archive : Archive) (trusted : Option (List Bytes)) : Action Bool := do
  let ok := archive.isGenuine trusted
  if !ok then Action.note archive.failureRecord
  return ok

end ModulePackaging.Archive
