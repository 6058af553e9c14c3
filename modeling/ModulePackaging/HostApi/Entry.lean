import ModulePackaging.Fault

/-!
# Versions of the host interface

An entry says which feature flags a module must be compiled with to run on one version of the host.
Flags are kept in ascending order and without repetition, so equal sets are equal lists. A manifest
from outside may record other things than texts as flags; those are kept as they are.
-/

namespace ModulePackaging

/-- The texts as a set: in ascending order, each once. -/
def flagSet (flags : List Text) : List Text := Text.distinct (Text.sorted flags)

/-- A version of the host interface and its flags. -/
structure ApiEntry where
  version : Version
  flags : List Text
  minSupported : Bool
  forwardCompatible : Bool
  removedFlags : List Text
  deriving DecidableEq

/-- The flags that a manifest records: texts, or other scalars among them. -/
inductive RecordedFlags
  | texts (flags : List Text)
  | mixed (flags : List Json)

namespace RecordedFlags

/-- Adds a value to a set of scalars, unless it is there. -/
def insertScalar (members : List Json) (value : Json) : List Json :=
  if members.any (·.sameScalar value) then members else members ++ [value]

/-- The set of some values, if all of them can be members of one. -/
def ofValues? (values : List Json) : Option RecordedFlags :=
  match values.mapM Json.text? with
  | some flags => some (.texts (flagSet flags))
  | none =>
    if values.all Json.isScalar then some (.mixed (values.foldl insertScalar [])) else none

/-- The values that can be taken out of a value one by one. -/
def valuesOf? : Json → Option (List Json)
  | .arr items => some items
  | .str t => some (t.map fun c => .str [c])
  | .obj members => some ((Members.keys members).map .str)
  | _ => none

/-- The flags that a value records; one that counts as absent records none. -/
def ofJson (value : Json) : Except Fault RecordedFlags :=
  if !value.isTruthy then .ok (.texts [])
  else match valuesOf? value with
    | none => .error (.wrongKind ("'" ++ value.kindName ++ "' object is not iterable"))
    | some values =>
      match ofValues? values with
      | some flags => .ok flags
      | none => .error (.wrongKind "unhashable type")

/-- Whether a number comes before another one or at its place. -/
def numberAtMost (a b : Json) : Bool :=
  match a.place?, b.place? with
  | some p, some q => p.compare q != .gt
  | _, _ => true

/-- The flags as a sorted array; values of several kinds have no order. -/
def toJson : RecordedFlags → Except Fault Json
  | texts flags => .ok (.texts flags)
  | mixed flags =>
    if flags.length ≤ 1 then .ok (.arr flags)
    else if flags.all fun value => value.kindName ∈ (["bool", "int", "float"] : List Text) then
      .ok (.arr (flags.mergeSort numberAtMost))
    else .error (.wrongKind "'<' not supported between the flags")

end RecordedFlags

/-- A version of the host interface as a manifest records it. -/
structure RecordedApi where
  version : Version
  flags : RecordedFlags
  minSupported : Bool
  forwardCompatible : Bool
  removedFlags : RecordedFlags

namespace RecordedApi

/-- The object that records a version of the host interface. -/
def toJson (api : RecordedApi) : Except Fault Json := do
  let flags ← api.flags.toJson
  let removed ← api.removedFlags.toJson
  return .obj [
    ("version", .str api.version.toText),
    ("feature_flags", flags),
    ("min_supported", .bool api.minSupported),
    ("forward_compatible", .bool api.forwardCompatible),
    ("removed_flags", removed)]

end RecordedApi

namespace ApiEntry

/-- An entry as a manifest records it. -/
def recorded (entry : ApiEntry) : RecordedApi :=
  ⟨entry.version, .texts entry.flags, entry.minSupported, entry.forwardCompatible,
    .texts entry.removedFlags⟩

/-- An entry as an object. -/
def toJson (entry : ApiEntry) : Json := .obj [
  ("version", .str entry.version.toText),
  ("feature_flags", .texts entry.flags),
  ("min_supported", .bool entry.minSupported),
  ("forward_compatible", .bool entry.forwardCompatible),
  ("removed_flags", .texts entry.removedFlags)]

end ApiEntry

end ModulePackaging
