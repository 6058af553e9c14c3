import ModulePackaging.HostApi.Matrix
import ModulePackaging.Workspace

/-!
# Tables of host versions

A table records each release of the host in a row: the flags that come and those that go. Adding the
rows up gives the flags of each version. Tables are kept in files and only ever grow at their end.
-/

namespace ModulePackaging

/-- A release of the host: what it adds and removes. -/
structure MatrixRow where
  version : Text
  added : List Text
  removed : List Text
  forwardCompatible : Bool
  minSupported : Bool
  deriving DecidableEq

/-- Why rows cannot be added up, read or appended. -/
inductive TableError
  | removesUnknown (version : Text) (flags : List Text)
  | badVersion (e : VersionError)
  | register (e : RegisterError)
  | rowNotObject (index : Nat)
  | rowUnknownFields (index : Nat) (keys : List Text)
  | rowWithoutVersion (index : Nat)
  | rowNotTexts (index : Nat) (key : Text)
  | rowNotBooleans (index : Nat)
  | notObject
  | format
  | rows
  | notNewer (version : Text) (newest : Version)

/-- The refusal in words. -/
def TableError.message : TableError → Text
  | .removesUnknown version flags =>
    "row " ++ version ++ " removes unknown feature flag(s): " ++ Text.listed flags
  | .badVersion e => e.message
  | .register e => e.message
  | .rowNotObject index => "matrix row " ++ Text.ofNat index ++ " must be an object"
  | .rowUnknownFields index keys =>
    "matrix row " ++ Text.ofNat index ++ " has unknown fields: " ++ Text.listed keys
  | .rowWithoutVersion index => "matrix row " ++ Text.ofNat index ++ " is missing version"
  | .rowNotTexts index key =>
    "matrix row " ++ Text.ofNat index ++ " '" ++ key ++ "' must be a list of strings"
  | .rowNotBooleans index => "matrix row " ++ Text.ofNat index ++ " flags must be booleans"
  | .notObject => "matrix table must be a JSON object"
  | .format => "unsupported matrix table format/version"
  | .rows => "matrix table rows must be an array"
  | .notNewer version newest =>
    "matrix table is append-only: " ++ version ++ " is not newer than " ++ newest.toText

/-- A table that is refused is a bad value. -/
def TableError.toFault (e : TableError) : Fault := .badValue e.message

namespace MatrixRow

/-- A row as an object. -/
def toJson (row : MatrixRow) : Json := .obj [
  ("version", .str row.version),
  ("added", .texts (Text.sorted row.added)),
  ("removed", .texts (Text.sorted row.removed)),
  ("forward_compatible", .bool row.forwardCompatible),
  ("min_supported", .bool row.minSupported)]

/-- The keys that a row may have. -/
def keys : List Text := ["version", "added", "removed", "forward_compatible", "min_supported"]

/-- The texts in a list under a key; none if the key is missing. -/
def textsAt (index : Nat) (members : Members) (key : Text) : Except TableError (List Text) :=
  match members.get? key with
  | none => .ok []
  | some (.arr items) =>
    match items.mapM Json.text? with
    | some texts => .ok texts
    | none => .error (.rowNotTexts index key)
  | some _ => .error (.rowNotTexts index key)

/-- The row that a value holds. -/
def ofJson (index : Nat) : Json → Except TableError MatrixRow
  | .obj members => do
    let unknown := Text.sorted ((Members.keys members).filter fun key => key ∉ keys)
    if !unknown.isEmpty then throw (.rowUnknownFields index unknown)
    match Members.get? "version" members with
    | some (.str (c :: rest)) =>
      let added ← textsAt index members "added"
      let removed ← textsAt index members "removed"
      match (Members.get? "forward_compatible" members).getD (.bool true),
          (Members.get? "min_supported" members).getD (.bool false) with
      | .bool forwardCompatible, .bool minSupported =>
        return ⟨c :: rest, added, removed, forwardCompatible, minSupported⟩
      | _, _ => throw (.rowNotBooleans index)
    | _ => throw (.rowWithoutVersion index)
  | _ => .error (.rowNotObject index)

/-- Adds rows up, from the flags that are current before them. -/
def accumulate (current : List Text) : List MatrixRow → Except TableError (List ApiEntry)
  | [] => .ok []
  | row :: rest => do
    let removed := flagSet row.removed
    let unknown := flagsWithout removed current
    if !unknown.isEmpty then throw (.removesUnknown row.version unknown)
    let flags := flagSet (flagsWithout current removed ++ row.added)
    let version ← (Version.parse row.version).mapError .badVersion
    let others ← accumulate flags rest
    return ⟨version, flags, row.minSupported, row.forwardCompatible, removed⟩ :: others

/-- The entries that rows add up to. -/
def entries (rows : List MatrixRow) : Except TableError (List ApiEntry) := accumulate [] rows

/-- The matrix that rows add up to. -/
def matrix (rows : List MatrixRow) : Except TableError Matrix := do
  (Matrix.empty.register (← entries rows)).mapError .register

end MatrixRow

namespace MatrixTable

/-- The rows that the value of a table file holds. -/
def rowsOfJson : Json → Except TableError (List MatrixRow)
  | .obj members =>
    let version := (Members.get? "version" members).getD .null
    if !((Members.get? "format" members).getD .null).equalsText "simpack-api-matrix" ||
        !version.equalsInt 0 then
      .error .format
    else match Members.get? "rows" members with
      | some (.arr items) => items.zipIdx.mapM fun (item, index) => MatrixRow.ofJson index item
      | _ => .error .rows
  | _ => .error .notObject

/-- The value of a table file. -/
def toJson (rows : List MatrixRow) : Json := .obj [
  ("format", .str "simpack-api-matrix"),
  ("version", .int 0),
  ("rows", .arr (rows.map MatrixRow.toJson))]

/-- The rows in a file. -/
def load (p : Path) : Action (List MatrixRow) := do
  Action.ofExcept TableError.toFault (rowsOfJson (← Action.readJson p))

/-- The matrix in a file. -/
def loadMatrix (p : Path) : Action Matrix := do
  Action.ofExcept TableError.toFault (MatrixRow.matrix (← load p))

/-- Puts rows into a file, if they make a matrix. -/
def save (p : Path) (rows : List MatrixRow) : Action Unit := do
  let _ ← Action.ofExcept TableError.toFault (MatrixRow.matrix rows)
  Action.storeJson p (toJson rows)

/-- Checks that a row is newer than the last one of a table. -/
def checkNewer (rows : List MatrixRow) (row : MatrixRow) : Except TableError Unit := do
  match rows.getLast? with
  | none => pure ()
  | some last =>
    let newest ← (Version.parse last.version).mapError .badVersion
    let version ← (Version.parse row.version).mapError .badVersion
    if ← (version.atMost newest).mapError .badVersion then throw (.notNewer row.version newest)

/-- Appends a row to the table in a file; a file that is not there is an empty table. -/
def append (p : Path) (row : MatrixRow) : Action Unit := do
  let rows ← if ← Action.ask (·.holds p) then load p else pure []
  Action.ofExcept TableError.toFault (checkNewer rows row)
  save p (rows ++ [row])

end MatrixTable

end ModulePackaging
