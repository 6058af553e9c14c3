import ModulePackaging.HostApi.Entry
import ModulePackaging.Log

/-!
# The matrix of host versions

The versions of the host interface in ascending order, each with its flags. A flag stays from one
version to the next unless the later one declares it removed. A request for a version resolves to
the version itself, or to the one below it if that is forward-compatible, or, beyond the newest one,
to the newest with a warning. A matrix is filled once.
-/

namespace ModulePackaging

/-- The registered versions, in ascending order. -/
structure Matrix where
  entries : List ApiEntry
  deriving DecidableEq

/-- Why entries are not registered. -/
inductive RegisterError
  | populated
  | noEntries
  | badFlag (flag : Text) (version : Version)
  | providedAndRemoved (version : Version) (flags : List Text)
  | duplicate (version : Version)
  | descending (previous version : Version)
  | undeclared (version : Version) (flags : List Text)
  | badVersion (e : VersionError)

/-- The refusal in words. -/
def RegisterError.message : RegisterError → Text
  | .populated => "version matrix is already populated"
  | .noEntries => "version matrix requires at least one entry"
  | .badFlag flag version =>
    "invalid feature flag " ++ flag.quoted ++ " in entry " ++ version.toText
  | .providedAndRemoved version flags =>
    "entry " ++ version.toText ++ " both provides and removes: " ++ Text.listed flags
  | .duplicate version => "duplicate host API version " ++ version.toText
  | .descending previous version =>
    "host API versions must be ascending: " ++ previous.toText ++ " before " ++ version.toText
  | .undeclared version flags =>
    "entry " ++ version.toText ++ " drops feature flag(s) without declaring them removed: " ++
      Text.listed flags
  | .badVersion e => e.message

/-- Why a matrix has no answer to a request. -/
inductive MatrixError
  | empty
  | badVersion (e : VersionError)
  | unreadable (e : VersionError) (requested : Json)
  | notRegistered (version : Version)
  | tooOld (requested oldest : Version)
  | notForwardCompatible (requested below : Version)

namespace MatrixError

/-- The refusal in words. -/
def message : MatrixError → Text
  | empty => "version matrix is empty"
  | badVersion e | unreadable e _ => e.message
  | notRegistered version => "host API version " ++ version.toText ++ " is not registered"
  | tooOld requested oldest =>
    "host API " ++ requested.toText ++ " is older than the oldest supported version " ++
      oldest.toText
  | notForwardCompatible requested below =>
    "host API " ++ requested.toText ++ " is not registered and " ++ below.toText ++
      " is not forward-compatible"

/-- The version that a refusal is about. -/
def hostVersion? : MatrixError → Option Text
  | empty | badVersion _ => none
  | unreadable _ requested => some requested.inMessage
  | notRegistered version => some version.toText
  | tooOld requested _ | notForwardCompatible requested _ => some requested.toText

/-- The refusal as a fault: a problem, save for versions that cannot be read or compared. -/
def toFault : MatrixError → Fault
  | badVersion e => .ofVersion e
  | e => .problem { Problem.of .unsupportedVersion e.message with hostVersion := e.hostVersion? }

end MatrixError

/-- What a request resolves to. -/
structure Target where
  requested : Version
  entry : ApiEntry
  exact : Bool
  beyondNewest : Bool
  deriving DecidableEq

namespace Target

variable (target : Target)

/-- The warning about a request beyond the newest version. -/
def warning? : Option Text :=
  if target.beyondNewest then
    some ("host API " ++ target.requested.toText ++
      " is newer than the newest registered version " ++ target.entry.version.toText ++
      "; building with the feature flags of " ++ target.entry.version.toText)
  else none

/-- What resolving the request leaves in the log. -/
def records : List LogRecord :=
  match target.warning? with
  | some warning => [⟨.warning, "simpack.matrix", warning⟩]
  | none =>
    if target.exact then []
    else [⟨.info, "simpack.matrix", "host API " ++ target.requested.toText ++
      " resolved to compatible entry " ++ target.entry.version.toText⟩]

end Target

/-- Whether a text is a feature flag: a small letter, then small letters, digits and `_`, and at
most one line end after them. -/
def isFlag (t : Text) : Bool :=
  let name := if t.getLast? == some 0x0A then t.dropLast else t
  match name with
  | [] => false
  | c :: rest =>
    c.isAsciiLower && rest.all fun c => c.isAsciiLower || c.isAsciiDigit || c = '_'

/-- The flags that are in the first list and not in the second. -/
def flagsWithout (flags others : List Text) : List Text := flags.filter fun flag => flag ∉ others

namespace Matrix

/-- The matrix before it is filled. -/
def empty : Matrix := ⟨[]⟩

/-- Checks an entry by itself. -/
def checkEntry (e : ApiEntry) : Except RegisterError Unit := do
  match (flagSet (e.flags ++ e.removedFlags)).find? fun flag => !isFlag flag with
  | some flag => throw (.badFlag flag e.version)
  | none => pure ()
  let both := e.flags.filter fun flag => flag ∈ e.removedFlags
  if !both.isEmpty then throw (.providedAndRemoved e.version both)

/-- Checks an entry against the one before it. -/
def checkStep (previous e : ApiEntry) : Except RegisterError Unit := do
  if ← (e.version.sameRank previous.version).mapError .badVersion then
    throw (.duplicate e.version)
  if ← (e.version.precedes previous.version).mapError .badVersion then
    throw (.descending previous.version e.version)
  let undeclared := flagsWithout (flagsWithout previous.flags e.flags) e.removedFlags
  if !undeclared.isEmpty then throw (.undeclared e.version undeclared)

/-- Checks entries one by one, after the one before them. -/
def checkAll : Option ApiEntry → List ApiEntry → Except RegisterError Unit
  | _, [] => .ok ()
  | previous, e :: rest => do
    checkEntry e
    match previous with
    | some p => checkStep p e
    | none => pure ()
    checkAll (some e) rest

/-- Fills a matrix that is empty. -/
def register (m : Matrix) (entries : List ApiEntry) : Except RegisterError Matrix :=
  if !m.entries.isEmpty then .error .populated
  else if entries.isEmpty then .error .noEntries
  else do
    checkAll none entries
    return ⟨entries⟩

variable (m : Matrix)

/-- The entry at a place. -/
def entryAt? (place : Nat) : Option ApiEntry := m.entries[place]?

/-- Halves the stretch between `low` and `high` until it is empty: to the first place at which
`passes` holds of the version, if it holds of all versions from there on. -/
def firstPlace (passes : Version → Except VersionError Bool) :
    Nat → Nat → Nat → Except VersionError Nat
  | 0, low, _ => .ok low
  | fuel + 1, low, high =>
    if low < high then
      let middle := (low + high) / 2
      match m.entryAt? middle with
      | none => .ok low
      | some e => do
        if ← passes e.version then firstPlace passes fuel low middle
        else firstPlace passes fuel (middle + 1) high
    else .ok low

/-- The first place whose version is not below `v`. -/
def placeFrom (v : Version) : Except VersionError Nat :=
  m.firstPlace (fun w => do return !(← w.precedes v)) (m.entries.length + 1) 0 m.entries.length

/-- The first place whose version is above `v`. -/
def placeAfter (v : Version) : Except VersionError Nat :=
  m.firstPlace (fun w => v.precedes w) (m.entries.length + 1) 0 m.entries.length

/-- The entry of a version, if it is registered. -/
def find? (v : Version) : Except VersionError (Option ApiEntry) := do
  match m.entryAt? (← m.placeFrom v) with
  | none => return none
  | some e => return if ← e.version.sameRank v then some e else none

/-- The entry of a version. -/
def get (v : Version) : Except MatrixError ApiEntry := do
  match ← (m.find? v).mapError .badVersion with
  | some e => return e
  | none => throw (.notRegistered v)

/-- The entry of the version that a value holds. -/
def getJson (value : Json) : Except MatrixError ApiEntry := do
  m.get (← (Version.ofJson value).mapError .badVersion)

/-- Whether a value holds a registered version. -/
def contains (value : Json) : Except VersionError Bool :=
  match Version.ofJson value with
  | .error _ => .ok false
  | .ok v => do return (← m.find? v).isSome

/-- The oldest entry. -/
def oldest : Except MatrixError ApiEntry :=
  match m.entries.head? with
  | some e => .ok e
  | none => .error .empty

/-- The newest entry. -/
def newest : Except MatrixError ApiEntry :=
  match m.entries.getLast? with
  | some e => .ok e
  | none => .error .empty

/-- What a request between the oldest and the newest version resolves to. -/
def resolveWithin (requested : Version) : Except MatrixError Target := do
  let place ← (m.placeAfter requested).mapError .badVersion
  match m.entryAt? (place - 1) with
  | none => throw .empty
  | some e =>
    if ← (e.version.sameRank requested).mapError .badVersion then
      return ⟨requested, e, true, false⟩
    else if e.forwardCompatible then return ⟨requested, e, false, false⟩
    else throw (.notForwardCompatible requested e.version)

/-- What a request for a version resolves to. -/
def resolve (requested : Version) : Except MatrixError Target := do
  let oldest ← m.oldest
  let newest ← m.newest
  if ← (requested.precedes oldest.version).mapError .badVersion then
    throw (.tooOld requested oldest.version)
  else if ← (requested.follows newest.version).mapError .badVersion then
    return ⟨requested, newest, false, true⟩
  else m.resolveWithin requested

/-- What a request for the version that a value holds resolves to. -/
def resolveJson (requested : Json) : Except MatrixError Target := do
  let _ ← m.oldest
  match Version.ofJson requested with
  | .error e => throw (.unreadable e requested)
  | .ok v => m.resolve v

end Matrix

end ModulePackaging
