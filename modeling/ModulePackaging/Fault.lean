import ModulePackaging.Problem
import ModulePackaging.Json.Reader
import ModulePackaging.Encoding.Base64
import ModulePackaging.Files.Error
import ModulePackaging.Zip.Error
import ModulePackaging.Version.Order
import ModulePackaging.Host

/-!
# Faults

Everything that can end an operation early: structured problems, failed builds with their cause, and
the plain failures of the parts below them. A report shows the kind and the words of a plain
failure.
-/

namespace ModulePackaging

/-- Why an operation ends early. -/
inductive Fault
  | problem (p : Problem)
  | failedBuild (p : Problem) (cause : Option Fault)
  | badValue (message : Text)
  | json (e : Json.ReadError)
  | undecodable (e : Undecodable)
  | unencodable (e : Unencodable)
  | base64 (e : Base64.Defect)
  | files (e : Files.Error)
  | container (e : Zip.Error)
  | system (message : Text)
  | toolchain (message : Text)
  | wrongKind (message : Text)
  | missingPart (message : Text)

namespace Fault

/-- The problem that a fault is, if it is a structured one. -/
def problem? : Fault → Option Problem
  | problem p | failedBuild p _ => some p
  | _ => none

/-- The name of the kind of a plain failure, as reports give it. -/
def kindName : Fault → Text
  | problem p | failedBuild p _ => p.reasonCode
  | badValue _ => "ValueError"
  | json (.defect ..) => "JSONDecodeError"
  | json (.tooLong _) => "ValueError"
  | json (.tooDeep _) => "RecursionError"
  | undecodable _ => "UnicodeDecodeError"
  | unencodable _ => "UnicodeEncodeError"
  | base64 (.unencodable _) => "UnicodeEncodeError"
  | base64 _ => "Error"
  | files (.refused errno _) | files (.refusedPair errno _ _) => errno.kindName
  | files (.unencodable _) => "UnicodeEncodeError"
  | files .nullByte | files (.noName _) => "ValueError"
  | container e =>
    match e.kind with
    | .badContainer => "BadZipFile"
    | .undecodable => "UnicodeDecodeError"
    | .unsupported => "NotImplementedError"
    | .system => "OSError"
    | .locked => "RuntimeError"
    | .ended => "EOFError"
    | .badData => "error"
  | system _ => "OSError"
  | toolchain _ => "ToolchainError"
  | wrongKind _ => "TypeError"
  | missingPart _ => "AttributeError"

/-- Whether a fault is about a value that is out of its domain. -/
def isBadValue : Fault → Bool
  | badValue _ | undecodable _ | unencodable _ | base64 _ => true
  | json (.defect ..) | json (.tooLong _) => true
  | files .nullByte | files (.noName _) | files (.unencodable _) => true
  | container e => e.kind == .undecodable
  | _ => false

/-- Whether a fault comes from the file system. -/
def isSystem : Fault → Bool
  | files (.refused ..) | files (.refusedPair ..) | system _ => true
  | container e => e.kind == .system
  | _ => false

/-- Whether a fault is a structured problem. -/
def isProblem (fault : Fault) : Bool := fault.problem?.isSome

/-- A fault on one line, with its cause if that is a structured problem. -/
def line : Fault → Text
  | problem p => p.line
  | failedBuild p cause =>
    let head : Text :=
      "[" ++ p.reasonCode ++ "] build failed at stage " ++ (Json.ofText? p.stage).inMessage ++
        ": " ++ p.message
    match cause with
    | some c => if c.isProblem then head ++ " <- " ++ c.line else head
    | none => head
  | badValue message => message
  | json e => e.message
  | undecodable e => e.message
  | unencodable e => e.message
  | base64 e => e.message
  | files e => e.message
  | container e => e.message
  | system message | toolchain message | wrongKind message | missingPart message => message

/-- The words of a fault, without its context. -/
def message (fault : Fault) : Text :=
  match fault.problem? with
  | some p => p.message
  | none => fault.line

/-- A fault in a report. -/
def toJson : Fault → Json
  | problem p => .obj p.members
  | failedBuild p cause =>
    let causeJson : Json :=
      match cause with
      | some c => c.toJson
      | none => .null
    .obj (p.members.put "cause" causeJson)
  | fault => .obj [
      ("reason_code", .str "INTERNAL_ERROR"),
      ("message", .str fault.line),
      ("type", .str fault.kindName)]

/-- A version that cannot be read or compared is a bad value. -/
def ofVersion (e : VersionError) : Fault := .badValue e.message

/-- A host that is not supported is a bad value. -/
def ofHost (e : HostError) : Fault := .badValue e.message

instance : Coe Problem Fault := ⟨problem⟩

end Fault

/-- The canonical bytes of a value, or the fault for which it has none: first a number that has too
many digits, then a surrogate that stands alone. -/
def Json.storedBytes (value : Json) : Except Fault Bytes :=
  if value.holdsLong then .error (.badValue Decimal.longMessage)
  else value.canonicalBytes.mapError .unencodable

end ModulePackaging
