import ModulePackaging.Descriptor.Basic
import ModulePackaging.Workspace

/-!
# The ledger of releases

What a channel has released: for each numeric id the package that has it and the last version of it.
A numeric id belongs to one package, and its versions never go back. The ledger is kept in a file,
and each operation on the file reads it anew.
-/

namespace ModulePackaging

/-- What a ledger has for a numeric id. -/
structure LedgerEntry where
  numericId : Int
  name : Text
  version : Text
  buildId : Text
  deriving DecidableEq

/-- The entries of a ledger, each numeric id once. -/
structure Ledger where
  entries : List LedgerEntry
  deriving DecidableEq

/-- Why a ledger cannot be read. -/
inductive LedgerError
  | notObject
  | format
  | releases
  | badKey (key : Text)
  | entryNotObject (key : Text)
  | entryWithoutName (key : Text)
  | entryWithoutVersion (key : Text)
  | number (e : Decimal.WholeError)

/-- The refusal in words. -/
def LedgerError.message : LedgerError → Text
  | .notObject => "ledger must be a JSON object"
  | .format => "unsupported ledger format/version"
  | .releases => "ledger releases must be an object"
  | .badKey key => "ledger key " ++ key.quoted ++ " must be a numeric id"
  | .entryNotObject key => "ledger entry " ++ key ++ " must be an object"
  | .entryWithoutName key => "ledger entry " ++ key ++ " is missing name"
  | .entryWithoutVersion key => "ledger entry " ++ key ++ " is missing version"
  | .number e => e.message

/-- Why a release is refused. -/
inductive ReleaseError
  | idTaken (numericId : Int) (owner : Text)
  | older (version released : Text)
  | badVersion (e : VersionError)

/-- The refusal in words. -/
def ReleaseError.message : ReleaseError → Text
  | .idTaken numericId owner =>
    "numeric_id " ++ Text.ofInt numericId ++ " is already used by package '" ++ owner ++ "'"
  | .older version released =>
    "version " ++ version ++ " is older than released version " ++ released
  | .badVersion e => e.message

/-- The refusal as a fault. -/
def ReleaseError.toFault (e : ReleaseError) : Fault :=
  match e with
  | .idTaken _ _ => .problem (.inField .validation e.message Field.numericId.key)
  | .older _ _ => .problem (.inField .validation e.message Field.version.key)
  | .badVersion e => .ofVersion e

namespace Ledger

/-- The ledger in which nothing is released. -/
def empty : Ledger := ⟨[]⟩

variable (ledger : Ledger)

/-- The entry of a numeric id. -/
def find? (numericId : Int) : Option LedgerEntry :=
  ledger.entries.find? fun entry => entry.numericId == numericId

/-- The ledger with an entry in the place of the one with its numeric id, or at the end. -/
def put (entry : LedgerEntry) : Ledger :=
  if ledger.entries.any (·.numericId == entry.numericId) then
    ⟨ledger.entries.map fun e => if e.numericId == entry.numericId then entry else e⟩
  else ⟨ledger.entries ++ [entry]⟩

/-- The ledger without the entry of a numeric id. -/
def drop (numericId : Int) : Ledger :=
  ⟨ledger.entries.filter fun entry => entry.numericId != numericId⟩

/-- The entries in the order of their numeric ids. -/
def ascending : List LedgerEntry :=
  sortedBy (fun a b => decide (a.numericId ≤ b.numericId)) ledger.entries

/-- The text of a member that must not be empty. -/
def textAt? (key : Text) (members : Members) : Option Text :=
  match members.get? key with
  | some (.str t) => if t.isEmpty then none else some t
  | _ => none

/-- The entry that a member of the releases holds. -/
def entryOf (key : Text) (value : Json) : Except LedgerError LedgerEntry := do
  if !key.isDigits then throw (.badKey key)
  match value with
  | .obj members =>
    match textAt? "name" members with
    | none => throw (.entryWithoutName key)
    | some name =>
      match textAt? "version" members with
      | none => throw (.entryWithoutVersion key)
      | some version =>
        let numericId ← (Decimal.whole key).mapError .number
        return ⟨numericId, name, version,
          ((Members.get? "build_id" members).getD .null).textOrEmpty⟩
  | _ => throw (.entryNotObject key)

/-- Puts the entries of the releases into a ledger, one after the other. -/
def putAll (ledger : Ledger) : Members → Except LedgerError Ledger
  | [] => .ok ledger
  | (key, value) :: rest => do putAll (ledger.put (← entryOf key value)) rest

/-- The ledger that the value of a file holds. -/
def ofJson : Json → Except LedgerError Ledger
  | .obj members =>
    let version := (Members.get? "version" members).getD .null
    if !((Members.get? "format" members).getD .null).equalsText "simpack-ledger" ||
        !version.equalsInt 0 then
      .error .format
    else match Members.get? "releases" members with
      | some (.obj releases) => putAll .empty releases
      | _ => .error .releases
  | _ => .error .notObject

/-- An entry as a member of the releases. -/
def member (entry : LedgerEntry) : Text × Json :=
  (Text.ofInt entry.numericId, .obj [
    ("name", .str entry.name), ("version", .str entry.version), ("build_id", .str entry.buildId)])

/-- The value of a ledger file. -/
def toJson : Json := .obj [
  ("format", .str "simpack-ledger"),
  ("version", .int 0),
  ("releases", .obj (ledger.ascending.map member))]

/-- Checks a release against what is released. -/
def check (d : Descriptor) : Except ReleaseError Unit :=
  match ledger.find? d.numericId with
  | none => .ok ()
  | some prior => do
    if prior.name ≠ d.name then throw (.idTaken d.numericId prior.name)
    let version ← (Version.parse d.version).mapError .badVersion
    let released ← (Version.parse prior.version).mapError .badVersion
    if ← (version.precedes released).mapError .badVersion then
      throw (.older d.version prior.version)

/-- The entry of a release. -/
def entryFor (d : Descriptor) : LedgerEntry := ⟨d.numericId, d.name, d.version, d.buildId⟩

/-- The ledger in a file; one that is not there has released nothing. -/
def load (p : Path) : Action Ledger := do
  if ← Action.ask (·.holds p) then
    Action.ofExcept (fun e => .badValue (LedgerError.message e)) (ofJson (← Action.readJson p))
  else return .empty

/-- Puts a ledger into a file. A numeric id of too many digits is found before the file is. -/
def save (p : Path) : Action Unit := do
  if ledger.entries.any fun entry => Decimal.isLong entry.numericId then
    throw (.badValue Decimal.longMessage)
  Action.storeJson p ledger.toJson

/-- Checks a release against the ledger in a file. -/
def checkIn (p : Path) (d : Descriptor) : Action Unit := do
  Action.ofExcept ReleaseError.toFault ((← load p).check d)

/-- Records a release in a file; the entry that it takes the place of, if there is one. -/
def record (p : Path) (d : Descriptor) : Action (Option LedgerEntry) := do
  let ledger ← load p
  Action.ofExcept ReleaseError.toFault (ledger.check d)
  let prior := ledger.find? d.numericId
  (ledger.put (entryFor d)).save p
  return prior

/-- Undoes the record of a release in a file: puts back the entry before it, or takes it out. -/
def rollback (p : Path) (d : Descriptor) (prior : Option LedgerEntry) : Action Unit := do
  let ledger ← load p
  match prior with
  | none => (ledger.drop d.numericId).save p
  | some entry => (ledger.put entry).save p

end Ledger

end ModulePackaging
