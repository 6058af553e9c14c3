import ModulePackaging.Fault

/-!
# Package descriptors

What a package says about itself, in nine fields. A draft is what has been filled in and may lack
fields or hold anything in them; a descriptor has a value of the right kind in each. The canonical
bytes of a descriptor are what the package digest covers.
-/

namespace ModulePackaging

/-- The fields of a descriptor, in order. -/
inductive Field
  | name
  | numericId
  | version
  | buildId
  | buildIdNamespace
  | confidentiality
  | hostTriple
  | docTitle
  | description
  deriving DecidableEq

namespace Field

/-- All fields in order. -/
def all : List Field := [
  .name, .numericId, .version, .buildId, .buildIdNamespace, .confidentiality, .hostTriple,
  .docTitle, .description]

/-- The key of a field in metadata and manifests. -/
def key : Field → Text
  | name => "name"
  | numericId => "numeric_id"
  | version => "version"
  | buildId => "build_id"
  | buildIdNamespace => "build_id_namespace"
  | confidentiality => "confidentiality"
  | hostTriple => "host_triple"
  | docTitle => "doc_title"
  | description => "description"

/-- The field of a key. -/
def ofKey? (key : Text) : Option Field := all.find? fun field => field.key == key

end Field

/-- Who may see a package. -/
inductive Confidentiality
  | everyone
  | internal
  | restricted
  deriving DecidableEq

namespace Confidentiality

/-- All levels, from the most open one. -/
def all : List Confidentiality := [.everyone, .internal, .restricted]

/-- The name of a level. -/
def name : Confidentiality → Text
  | everyone => "Public"
  | internal => "Internal"
  | restricted => "Restricted"

/-- The level that a value names exactly. -/
def ofName? (value : Json) : Option Confidentiality :=
  all.find? fun level => value.equalsText level.name

/-- The level that a text names, in any case and with blanks around it. -/
def ofText? (t : Text) : Option Confidentiality :=
  all.find? fun level => t.trimmed.lowercase == level.name.lowercase

end Confidentiality

/-- Metadata that may lack fields and may hold anything. -/
structure Draft where
  value? : Field → Option Json

namespace Draft

/-- The draft in which nothing is filled in. -/
def empty : Draft := ⟨fun _ => none⟩

/-- The draft with a field filled in. -/
def set (draft : Draft) (field : Field) (value : Json) : Draft :=
  ⟨fun f => if f = field then some value else draft.value? f⟩

/-- The value of a field; null if it is missing. -/
def value (draft : Draft) (field : Field) : Json := (draft.value? field).getD .null

/-- The draft that has the fields of an object. -/
def ofMembers (members : Members) : Draft := ⟨fun field => members.get? field.key⟩

/-- The fields of a draft as an object. The confidentiality must be one of the levels. -/
def toJson (draft : Draft) : Except Fault Json :=
  match Confidentiality.ofName? (draft.value .confidentiality) with
  | some _ => .ok (.obj (Field.all.map fun field => (field.key, draft.value field)))
  | none => .error (.missingPart "'str' object has no attribute 'value'")

/-- The bytes of a draft that a digest covers. -/
def canonicalBytes (draft : Draft) : Except Fault Bytes := do
  (← draft.toJson).storedBytes

end Draft

/-- What a package says about itself. -/
structure Descriptor where
  name : Text
  numericId : Int
  version : Text
  buildId : Text
  buildIdNamespace : Text
  confidentiality : Confidentiality
  hostTriple : Text
  docTitle : Text
  description : Text
  deriving DecidableEq

namespace Descriptor

/-- The value of a field. -/
def value (d : Descriptor) : Field → Json
  | .name => .str d.name
  | .numericId => .int d.numericId
  | .version => .str d.version
  | .buildId => .str d.buildId
  | .buildIdNamespace => .str d.buildIdNamespace
  | .confidentiality => .str d.confidentiality.name
  | .hostTriple => .str d.hostTriple
  | .docTitle => .str d.docTitle
  | .description => .str d.description

/-- A descriptor as a draft, with all fields filled in. -/
def draft (d : Descriptor) : Draft := ⟨fun field => some (d.value field)⟩

/-- A descriptor as a manifest holds it. -/
def toJson (d : Descriptor) : Json := .obj (Field.all.map fun field => (field.key, d.value field))

/-- Whether a value is what a descriptor has in a field. -/
def agreesAt (d : Descriptor) (field : Field) (value : Json) : Bool :=
  match d.value field with
  | .str t => value.equalsText t
  | .int n => value.equalsInt n
  | _ => false

end Descriptor

/-- The descriptor that a draft amounts to, if each field has a value of the right kind; nothing
else is checked. -/
def Draft.filled? (draft : Draft) : Option Descriptor := do
  let name ← (draft.value .name).text?
  let numericId ←
    match draft.value .numericId with
    | .int n => some n
    | _ => none
  return {
    name, numericId
    version := ← (draft.value .version).text?
    buildId := ← (draft.value .buildId).text?
    buildIdNamespace := ← (draft.value .buildIdNamespace).text?
    confidentiality := ← Confidentiality.ofName? (draft.value .confidentiality)
    hostTriple := ← (draft.value .hostTriple).text?
    docTitle := ← (draft.value .docTitle).text?
    description := ← (draft.value .description).text? }

end ModulePackaging
