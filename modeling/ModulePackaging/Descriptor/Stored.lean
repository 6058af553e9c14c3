import ModulePackaging.Descriptor.Check

/-!
# Stored descriptors

Reads a descriptor as a manifest holds it: exactly the nine fields, each already in its canonical
form, so that writing the descriptor again gives the same object.
-/

namespace ModulePackaging

/-- Why an object is no stored descriptor. -/
inductive StoredError
  | notObject (kind : Text)
  | unknownFields (keys : List Text)
  | missingFields (keys : List Text)
  | numericId
  | draft (e : DraftError)
  | notCanonical (field : Field)

namespace StoredError

/-- The refusal in words. -/
def message : StoredError → Text
  | notObject kind => "'" ++ kind ++ "' object has no attribute 'keys'"
  | unknownFields keys => "descriptor has unknown fields: " ++ Text.listed keys
  | missingFields keys => "descriptor is missing fields: " ++ Text.listed keys
  | numericId => "descriptor numeric_id must be an integer"
  | draft e => e.message
  | notCanonical field => "descriptor field '" ++ field.key ++ "' is not in canonical form"

/-- The key of the field that is refused. -/
def field : StoredError → Text
  | notObject _ => []
  | unknownFields keys | missingFields keys => keys.headD []
  | numericId => Field.numericId.key
  | draft e => e.field
  | notCanonical field => field.key

/-- The refusal as a fault; something that has no fields at all is no matter of validation. -/
def toFault (e : StoredError) : Fault :=
  match e with
  | notObject _ => .missingPart e.message
  | _ => .problem (.inField .validation e.message e.field)

end StoredError

namespace Descriptor

/-- Whether a value is a whole number, and not just equal to one. -/
def isInteger : Json → Bool
  | .int _ => true
  | _ => false

/-- The descriptor that the members of an object hold. -/
def ofMembers (members : Members) : Except StoredError Descriptor := do
  let unknown := Text.sorted (members.keys.filter fun key => (Field.ofKey? key).isNone)
  if !unknown.isEmpty then throw (.unknownFields unknown)
  let missing := Text.sorted ((Field.all.map Field.key).filter fun key => (members.get? key).isNone)
  if !missing.isEmpty then throw (.missingFields missing)
  let draft := Draft.ofMembers members
  if !isInteger (draft.value .numericId) then throw .numericId
  let d ← draft.check.mapError .draft
  match draft.firstDifference? d with
  | some field => throw (.notCanonical field)
  | none => return d

/-- The descriptor that a value holds. -/
def ofJson : Json → Except StoredError Descriptor
  | .obj members => ofMembers members
  | value => .error (.notObject value.kindName)

end Descriptor

end ModulePackaging
