import ModulePackaging.Descriptor.Basic
import ModulePackaging.Workspace

/-!
# Projects

The file `simpack.json` in a source directory: the metadata of the package, where the compiled
module is, which files go with it and how to compile it. Every path in it stays inside the
directory.
-/

namespace ModulePackaging

/-- A file that goes with the module: its path in the package and where it is. -/
structure ResourceSpec where
  path : Text
  source : Path
  deriving DecidableEq

/-- What a project says about itself. -/
structure Project where
  sourceDir : Path
  package : Members
  artifact : Option Path
  resources : List ResourceSpec
  command : Option (List Text)

/-- Why a project file is refused. -/
inductive ConfigError
  | notFound (path : Path)
  | json (e : Json.ReadError)
  | notObject
  | format
  | unknownFields (keys : List Text)
  | package
  | artifact
  | resources
  | resource (index : Nat)
  | toolchain
  | command
  | outside (key path : Text)

namespace ConfigError

/-- The refusal in words. -/
def message : ConfigError → Text
  | notFound path => "build configuration not found: " ++ path.toText
  | json e => "build configuration is not valid JSON: " ++ e.message
  | notObject => "build configuration must be a JSON object"
  | format => "unsupported build configuration format/version"
  | unknownFields keys => "build configuration has unknown fields: " ++ Text.listed keys
  | package => "build configuration 'package' must be an object"
  | artifact => "'artifact' must be a relative path string"
  | resources => "'resources' must be an array"
  | resource index => "resource " ++ Text.ofNat index ++ " must have string 'path' and 'source'"
  | toolchain => "'toolchain' must be an object"
  | command => "'toolchain.command' must be a non-empty list of strings"
  | outside key path => key ++ " must stay inside the source directory, got: " ++ path

/-- The part of the file that is refused. -/
def field : ConfigError → Text
  | notFound _ | json _ | notObject => "config"
  | format => "format"
  | unknownFields keys => keys.headD []
  | package => "package"
  | artifact => "artifact"
  | resources | resource _ => "resources"
  | toolchain | command => "toolchain"
  | outside key _ => key

/-- The refusal as a problem. -/
def toProblem (e : ConfigError) : Problem := .inField .validation e.message e.field

/-- The refusal as a fault. -/
def toFault (e : ConfigError) : Fault := .problem e.toProblem

end ConfigError

namespace Project

/-- The name of the project file. -/
def filename : Text := "simpack.json"

/-- The keys that a project file may have. -/
def keys : List Text := ["format", "version", "package", "artifact", "resources", "toolchain", "x"]

/-- The path of something in the source directory; backslashes separate names too. -/
def inside (sourceDir : Path) (key t : Text) : Except ConfigError Path :=
  let p := Path.ofText (t.replacing '\\' '/')
  if p.isAbsolute || p.parts.contains ".." then .error (.outside key t)
  else .ok (sourceDir / p)

/-- The value of a key; null if it is missing. -/
def valueAt (members : Members) (key : Text) : Json := (members.get? key).getD .null

/-- The path of the compiled module, if one is named. -/
def artifactOf (sourceDir : Path) (members : Members) : Except ConfigError (Option Path) :=
  match valueAt members "artifact" with
  | .null => .ok none
  | .str t =>
    if t.isEmpty then .error .artifact else (inside sourceDir "artifact" t).map some
  | _ => .error .artifact

/-- A file that goes with the module: named by one text, or by its two paths. -/
def resourceOf (sourceDir : Path) (index : Nat) (value : Json) : Except ConfigError ResourceSpec :=
  match value with
  | .str t => do return ⟨t, ← inside sourceDir "resources" t⟩
  | .obj members =>
    match valueAt members "path", valueAt members "source" with
    | .str path, .str source => do return ⟨path, ← inside sourceDir "resources" source⟩
    | _, _ => .error (.resource index)
  | _ => .error (.resource index)

/-- The files that go with the module. -/
def resourcesOf (sourceDir : Path) (members : Members) : Except ConfigError (List ResourceSpec) :=
  match (members.get? "resources").getD (.arr []) with
  | .arr items => items.zipIdx.mapM fun (item, index) => resourceOf sourceDir index item
  | _ => .error .resources

/-- The command that compiles the module, if there is one. -/
def commandOf (members : Members) : Except ConfigError (Option (List Text)) :=
  match valueAt members "toolchain" with
  | .null => .ok none
  | .obj toolchain =>
    match valueAt toolchain "command" with
    | .arr items =>
      match items.mapM Json.text? with
      | some (program :: arguments) => .ok (some (program :: arguments))
      | _ => .error .command
    | _ => .error .command
  | _ => .error .toolchain

/-- The project that the value of a project file holds. -/
def ofJson (sourceDir : Path) : Json → Except ConfigError Project
  | .obj members => do
    if !(valueAt members "format").equalsText "simpack-build" ||
        !(valueAt members "version").equalsInt 0 then
      throw .format
    let unknown := Text.sorted ((Members.keys members).filter fun key => key ∉ keys)
    if !unknown.isEmpty then throw (.unknownFields unknown)
    match valueAt members "package" with
    | .obj package =>
      let artifact ← artifactOf sourceDir members
      let resources ← resourcesOf sourceDir members
      let command ← commandOf members
      return ⟨sourceDir, package, artifact, resources, command⟩
    | _ => throw .package
  | _ => .error .notObject

/-- A text that is no JSON is no project; other failures to read it stay what they are. -/
def readFault : Json.ReadError → Fault
  | .defect what position line column =>
    (ConfigError.json (.defect what position line column)).toFault
  | e => .json e

/-- The project in a source directory, or in a project file. -/
def load (source : Path) : Action Project := do
  let file : Path := if ← Action.ask (·.isDirectory source) then source / filename else source
  if !(← Action.ask (·.holds file)) then throw (ConfigError.notFound file).toFault
  let value ← Action.ofExcept readFault (Json.read (← Action.readText file))
  Action.ofExcept ConfigError.toFault (ofJson file.parent value)

end Project

end ModulePackaging
