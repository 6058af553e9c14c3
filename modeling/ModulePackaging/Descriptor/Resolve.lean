import ModulePackaging.Descriptor.Check

/-!
# Resolving metadata

Merges the metadata of a project with overrides that an environment brings. An override replaces the
field that it names, whatever name the metadata gave it. The strict mode refuses metadata fields and
overrides that it does not know, and leaves alone what is not meant for this program.
-/

namespace ModulePackaging

/-- Why metadata cannot be resolved. -/
inductive ResolveError
  | unknownField (key : Text)
  | unknownOverride (key : Text)
  | draft (e : DraftError)

namespace ResolveError

/-- The refusal in words. -/
def message : ResolveError → Text
  | unknownField key => "unknown metadata field '" ++ key ++ "'"
  | unknownOverride key => "unrecognized override key '" ++ key ++ "'"
  | draft e => e.message

/-- The refusal as a problem. -/
def toProblem : ResolveError → Problem
  | draft e => e.toProblem
  | unknownField key => .inField .validation (message (unknownField key)) key
  | unknownOverride key => .inField .validation (message (unknownOverride key)) key

end ResolveError

namespace Override

/-- What the key of every override starts with. -/
def start : Text := "SIMPACK_"

/-- The key of the override of a field. -/
def key : Field → Text
  | .name => "SIMPACK_PACKAGE_NAME"
  | .numericId => "SIMPACK_PACKAGE_NUMBER"
  | .version => "SIMPACK_PACKAGE_VERSION"
  | .buildId => "SIMPACK_PACKAGE_BUILD_ID"
  | .buildIdNamespace => "SIMPACK_PACKAGE_BUILD_ID_NAMESPACE"
  | .confidentiality => "SIMPACK_PACKAGE_CONFIDENTIALITY"
  | .hostTriple => "SIMPACK_PACKAGE_HOST"
  | .description => "SIMPACK_PACKAGE_DESCRIPTION"
  | .docTitle => "SIMPACK_PACKAGE_DOC_TITLE"

/-- The field that an override is for. -/
def field? (k : Text) : Option Field := Field.all.find? fun field => key field == k

/-- The overrides in an environment. -/
def collect (environment : Members) : Members := environment.filter fun (k, _) => (field? k).isSome

/-- All in an environment that is meant for this program. -/
def collectAll (environment : Members) : Members :=
  environment.filter fun (k, _) => k.startsWith start

end Override

namespace Metadata

/-- The field of a key in metadata, which may be an alias. -/
def field? (key : Text) : Option Field :=
  if key = ("package_number" : Text) then some .numericId
  else if key = ("host" : Text) then some .hostTriple
  else Field.ofKey? key

/-- Fills the fields of metadata into a draft. -/
def fill (strict : Bool) (draft : Draft) : Members → Except ResolveError Draft
  | [] => .ok draft
  | (key, value) :: rest =>
    match field? key with
    | some field => fill strict (draft.set field value) rest
    | none => if strict then .error (.unknownField key) else fill strict draft rest

/-- Fills overrides into a draft. -/
def override (strict : Bool) (draft : Draft) : Members → Except ResolveError Draft
  | [] => .ok draft
  | (key, value) :: rest =>
    match Override.field? key with
    | some field => override strict (draft.set field value) rest
    | none =>
      if strict && key.startsWith Override.start then .error (.unknownOverride key)
      else override strict draft rest

/-- The descriptor of metadata under overrides. -/
def resolve (base overrides : Members) (strict : Bool) : Except ResolveError Descriptor := do
  let draft ← fill strict .empty base
  let draft ← override strict draft (Json.Style.inKeyOrder overrides)
  draft.check.mapError .draft

end Metadata

end ModulePackaging
