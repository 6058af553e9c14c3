import ModulePackaging.Json.Value
import ModulePackaging.Json.Writer

/-!
# Problems

The structured refusals of the packaging pipeline. Each has a stable reason code, so that reports
stay readable by machines, and whatever context the stage that refuses knows.
-/

namespace ModulePackaging

/-- The kinds of problems. -/
inductive ProblemKind
  | general
  | validation
  | unsupportedVersion
  | signingKey
  | integrity
  | layoutConflict
  | collision
  | buildFailed
  deriving DecidableEq

/-- The reason code of a kind. -/
def ProblemKind.reasonCode : ProblemKind → Text
  | general => "SIMPACK_ERROR"
  | validation => "VALIDATION_ERROR"
  | unsupportedVersion => "UNSUPPORTED_VERSION"
  | signingKey => "SIGNING_KEY_ERROR"
  | integrity => "INTEGRITY_ERROR"
  | layoutConflict => "LAYOUT_CONFLICT"
  | collision => "OUTPUT_COLLISION"
  | buildFailed => "BUILD_FAILED"

/-- A problem and its context: the field, the stage, the path, the version of the host interface and
the digests that it is about. The digest that was expected is whatever a manifest claims. -/
structure Problem where
  kind : ProblemKind
  message : Text
  reasonCode : Text
  field : Option Text
  stage : Option Text
  path : Option Text
  hostVersion : Option Text
  expectedDigest : Json
  actualDigest : Option Text

namespace Problem

/-- A problem without context. -/
def of (kind : ProblemKind) (message : Text) : Problem :=
  ⟨kind, message, kind.reasonCode, none, none, none, none, .null, none⟩

/-- A problem with a field. -/
def inField (kind : ProblemKind) (message field : Text) : Problem :=
  { of kind message with field := some field }

/-- A problem with a path. -/
def atPath (kind : ProblemKind) (message path : Text) : Problem :=
  { of kind message with path := some path }

variable (p : Problem)

/-- The members of a problem in a report. -/
def members : Members := [
  ("reason_code", .str p.reasonCode),
  ("message", .str p.message),
  ("field", .ofText? p.field),
  ("stage", .ofText? p.stage),
  ("path", .ofText? p.path),
  ("host_version", .ofText? p.hostVersion),
  ("sha256_expected", p.expectedDigest),
  ("sha256_got", .ofText? p.actualDigest)]

/-- A piece of context behind its name; nothing if it is missing or empty. -/
def context (name : Text) : Option Text → List Text
  | some t => if t.isEmpty then [] else [name ++ "=" ++ t]
  | none => []

/-- The digests, if there are any. -/
def digests : List Text :=
  let actual : Json := .ofText? p.actualDigest
  if p.expectedDigest.isTruthy || actual.isTruthy then
    ["sha256_expected=" ++ p.expectedDigest.inMessage, "sha256_got=" ++ actual.inMessage]
  else []

/-- A problem on one line. -/
def line : Text :=
  Text.joined " " <|
    [("[" ++ p.reasonCode ++ "] " ++ p.message : Text)] ++ context "stage" p.stage ++
      context "field" p.field ++ context "host_version" p.hostVersion ++ context "path" p.path ++
      p.digests

end Problem

end ModulePackaging
