import ModulePackaging.HostApi.Matrix

/-!
# Changes between host versions

What differs between two registered versions, which versions come after one, and whether a version
passes a list of patterns.
-/

namespace ModulePackaging

/-- The flags that come and go from one version to another. -/
structure FeatureDiff where
  older : Version
  newer : Version
  added : List Text
  removed : List Text
  deriving DecidableEq

namespace FeatureDiff

/-- The difference between two entries. -/
def between (a b : ApiEntry) : FeatureDiff :=
  ⟨a.version, b.version, flagsWithout b.flags a.flags, flagsWithout a.flags b.flags⟩

/-- Whether nothing differs. -/
def isEmpty (d : FeatureDiff) : Bool := d.added.isEmpty && d.removed.isEmpty

/-- A difference as an object. -/
def toJson (d : FeatureDiff) : Json := .obj [
  ("from", .str d.older.toText),
  ("to", .str d.newer.toText),
  ("added", .texts d.added),
  ("removed", .texts d.removed)]

end FeatureDiff

namespace Matrix

variable (m : Matrix)

/-- The difference between two registered versions. -/
def diff (a b : Version) : Except MatrixError FeatureDiff := do
  return .between (← m.get a) (← m.get b)

/-- The difference between the versions that two values hold. -/
def diffJson (a b : Json) : Except MatrixError FeatureDiff := do
  return .between (← m.getJson a) (← m.getJson b)

/-- The differences between each version and the next. -/
def changes : Except MatrixError (List FeatureDiff) :=
  (m.entries.zip m.entries.tail).mapM fun (older, newer) => m.diff older.version newer.version

/-- Whether a version is at a floor or above it. -/
def reachesFloor (floor : Option Version) (v : Version) : Except VersionError Bool :=
  match floor with
  | none => .ok true
  | some low => do return !(← v.precedes low)

/-- The versions from a floor on; pre-releases only on demand. -/
def versionsSince (floor : Option Version) (withPrereleases : Bool) :
    Except VersionError (List Version) :=
  (m.entries.map ApiEntry.version).filterM fun v => do
    return (← reachesFloor floor v) && (withPrereleases || !v.isPrerelease)

end Matrix

/-- Why a pattern cannot be compared with a version. -/
inductive PatternError
  | badVersion (e : VersionError)
  | badPattern (pattern : Text)

/-- The refusal in words. -/
def PatternError.message : PatternError → Text
  | .badVersion e => e.message
  | .badPattern pattern => "invalid version pattern " ++ pattern.quoted

namespace Version

/-- Whether a version matches a pattern: one of three components is a version of the same rank, any
other one gives the first numbers of the version. -/
def isLike (v : Version) (pattern : Text) : Except PatternError Bool :=
  let parts := pattern.trimmed.splitOn '.'
  if parts.length = 3 then do
    let w ← (parse pattern.trimmed).mapError .badVersion
    (v.sameRank w).mapError .badVersion
  else match parts.mapM Decimal.whole with
    | .error _ => .error (.badPattern pattern)
    | .ok numbers => .ok ((v.core.take numbers.length).map Int.ofNat == numbers)

/-- Whether a version matches one of some patterns. -/
def isLikeAny (v : Version) : List Text → Except PatternError Bool
  | [] => .ok false
  | pattern :: rest => do if ← v.isLike pattern then return true else isLikeAny v rest

/-- Whether a version is available: it matches no invalid pattern, and a valid one if there are
any. -/
def isAvailable (v : Version) (valid invalid : List Text) : Except PatternError Bool := do
  if ← v.isLikeAny invalid then return false
  else if valid.isEmpty then return true
  else v.isLikeAny valid

end Version

end ModulePackaging
