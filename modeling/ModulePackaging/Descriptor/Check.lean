import ModulePackaging.Descriptor.Basic

/-!
# Checking drafts

Turns a draft into a descriptor, or names the first field that is missing or does not fit. Blanks
around most values are dropped and missing optional fields take their defaults, so a descriptor can
differ from its draft; a draft is in resolved form when it does not.
-/

namespace ModulePackaging

/-- Why a draft is refused. -/
inductive DraftError
  | missing (field : Field)
  | notText (field : Field)
  | badName (name : Text)
  | notInteger
  | notPositive (shown : Text)
  | number (e : Decimal.WholeError)
  | version (e : VersionError)
  | badBuildId (buildId : Text)
  | confidentiality (value : Json)
  | host (e : HostError)
  | notResolved (field : Field)
  | notDescriptor

namespace DraftError

/-- The refusal in words. -/
def message : DraftError → Text
  | missing field => "missing required field '" ++ field.key ++ "'"
  | notText field => "field '" ++ field.key ++ "' must be a string"
  | badName name =>
    "package name must be lowercase letters, digits, '-' or '_', got " ++ name.quoted
  | notInteger => "numeric_id must be an integer"
  | notPositive shown => "numeric_id must be a positive integer, got " ++ shown
  | number e => e.message
  | version e => e.message
  | badBuildId buildId => "invalid build_id " ++ buildId.quoted
  | confidentiality value =>
    "confidentiality must be one of Public, Internal, Restricted, got " ++ value.display
  | host e => e.message
  | notResolved field => "descriptor field '" ++ field.key ++ "' is not in resolved form"
  | notDescriptor => "expected a PackageDescriptor"

/-- The key of the field that is refused. -/
def field : DraftError → Text
  | missing field | notText field | notResolved field => field.key
  | badName _ => Field.name.key
  | notInteger | notPositive _ | number _ => Field.numericId.key
  | version _ => Field.version.key
  | badBuildId _ => Field.buildId.key
  | confidentiality _ => Field.confidentiality.key
  | host _ => Field.hostTriple.key
  | notDescriptor => "descriptor"

/-- The refusal as a problem. -/
def toProblem (e : DraftError) : Problem := .inField .validation e.message e.field

end DraftError

/-- Whether a text is a package name: small letters, digits, `-` and `_`, the first one none of the
signs. -/
def isPackageName : Text → Bool
  | [] => false
  | c :: rest =>
    (c.isAsciiLower || c.isAsciiDigit) &&
      rest.all fun c => c.isAsciiLower || c.isAsciiDigit || c = '_' || c = '-'

/-- Whether a text is a build id: letters, digits and the signs `.`, `_`, `:` and `-`. -/
def isBuildId (t : Text) : Bool :=
  t.all fun c => c.isAsciiLetter || c.isAsciiDigit || c = '.' || c = '_' || c = ':' || c = '-'

namespace Draft

variable (draft : Draft)

/-- The text of a field, or the default for one that is missing or empty. -/
def text (field : Field) (default : Option Text) : Except DraftError Text :=
  let absent : Except DraftError Text :=
    match default with
    | some t => .ok t
    | none => .error (.missing field)
  match draft.value field with
  | .null => absent
  | .str t => if t.isEmpty then absent else .ok t
  | _ => .error (.notText field)

/-- A whole number that a value is or spells. -/
def numericIdOf : Json → Except DraftError Int
  | .bool _ => .error .notInteger
  | .int n => .ok n
  | .str t =>
    if t.trimmed.isDigits then (Decimal.whole t.trimmed).mapError .number
    else .error (.notPositive t.quoted)
  | value => .error (.notPositive value.display)

/-- The numeric id, which must be positive. -/
def numericId : Except DraftError Int :=
  match draft.value .numericId with
  | .null => .error (.missing .numericId)
  | value => do
    let n ← numericIdOf value
    if n ≤ 0 then throw (.notPositive (Text.ofInt n)) else return n

/-- The level of confidentiality: open to everyone if the field is missing. -/
def confidentiality : Except DraftError Confidentiality :=
  match draft.value? .confidentiality with
  | none => .ok .everyone
  | some (.str t) =>
    match Confidentiality.ofText? t with
    | some level => .ok level
    | none => .error (.confidentiality (.str t))
  | some value => .error (.confidentiality value)

/-- The descriptor of a draft. -/
def check : Except DraftError Descriptor := do
  let name := (← draft.text .name none).trimmed
  if !isPackageName name then throw (.badName name)
  let numericId ← draft.numericId
  let version := (← draft.text .version none).trimmed
  let _ ← (Version.parse version).mapError .version
  let buildId := (← draft.text .buildId (some [])).trimmed
  if !isBuildId buildId then throw (.badBuildId buildId)
  let buildIdNamespace := (← draft.text .buildIdNamespace (some name)).trimmed
  let confidentiality ← draft.confidentiality
  let hostTriple := (← draft.text .hostTriple none).trimmed
  let _ ← (Host.ofTriple hostTriple).mapError .host
  let docTitle ← draft.text .docTitle (some name)
  let description ← draft.text .description (some [])
  return {
    name, numericId, version, buildId, buildIdNamespace, confidentiality, hostTriple, docTitle,
    description }

/-- The first field in which a draft differs from a descriptor. -/
def firstDifference? (d : Descriptor) : Option Field :=
  Field.all.find? fun field => !d.agreesAt field (draft.value field)

/-- The descriptor of a draft that is in resolved form. -/
def checkResolved : Except DraftError Descriptor := do
  let d ← draft.check
  match draft.firstDifference? d with
  | some field => throw (.notResolved field)
  | none => return d

end Draft

end ModulePackaging
