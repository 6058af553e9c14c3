import ModulePackaging.Decimal.Whole
import ModulePackaging.Json.Writer

/-!
# Semantic versions

Versions of packages and of the host interface: three numbers, then the identifiers of a
pre-release, then those of a build. The text of a version is split at the first `+` and then at the
first `-`, because neither sign can stand inside what comes before it.
-/

namespace ModulePackaging

/-- A semantic version. -/
structure Version where
  major : Nat
  minor : Nat
  patch : Nat
  prerelease : List Text
  build : List Text
  deriving DecidableEq

/-- Why something is no version. -/
inductive VersionError
  | notText (kind : Text)
  | malformed (text : Text)
  | number (e : Decimal.WholeError)

/-- The refusal in words. -/
def VersionError.message : VersionError → Text
  | .notText kind => "version must be a string, got " ++ kind
  | .malformed text => "invalid semantic version: " ++ text.quoted
  | .number e => e.message

namespace Version

/-- The three numbers of a version. -/
def core (v : Version) : List Nat := [v.major, v.minor, v.patch]

/-- Whether a version comes before the release it is named for. -/
def isPrerelease (v : Version) : Bool := !v.prerelease.isEmpty

/-- A number without leading zeros; its digits after the first may be of any script. -/
def isNumber : Text → Bool
  | [] => false
  | c :: rest =>
    if c = '0' then rest.isEmpty
    else c.isAsciiDigit && rest.all CodePoint.isDecimal

/-- An ASCII letter or a hyphen. -/
def isLetter (c : CodePoint) : Bool := c.isAsciiLetter || c = '-'

/-- An ASCII letter, digit or hyphen. -/
def isIdentifierPoint (c : CodePoint) : Bool := isLetter c || c.isAsciiDigit

/-- An identifier that is not a number: digits of any script, then a letter, then ASCII. -/
def isWord (t : Text) : Bool :=
  match t.dropWhile CodePoint.isDecimal with
  | [] => false
  | c :: rest => isLetter c && rest.all isIdentifierPoint

/-- An identifier of a pre-release. -/
def isPrereleaseIdentifier (t : Text) : Bool := isNumber t || isWord t

/-- An identifier of a build. -/
def isBuildIdentifier (t : Text) : Bool := !t.isEmpty && t.all isIdentifierPoint

/-- The text before the first `sep`, and the text after it if it is there. -/
def cut (sep : CodePoint) (t : Text) : Text × Option Text :=
  let before := t.takeWhile (· != sep)
  match t.drop before.length with
  | [] => (before, none)
  | _ :: rest => (before, some rest)

/-- The identifiers of an optional part, if each of them passes. -/
def identifiers? (passes : Text → Bool) : Option Text → Option (List Text)
  | none => some []
  | some t =>
    let parts := t.splitOn '.'
    if parts.all passes then some parts else none

/-- The parts of a version's text: the three numbers, the pre-release and the build. -/
def parts? (t : Text) : Option (Text × Text × Text × List Text × List Text) :=
  let (front, build) := cut '+' t
  let (core, prerelease) := cut '-' front
  match core.splitOn '.', identifiers? isPrereleaseIdentifier prerelease,
      identifiers? isBuildIdentifier build with
  | [major, minor, patch], some prerelease, some build =>
    if isNumber major && isNumber minor && isNumber patch then
      some (major, minor, patch, prerelease, build)
    else none
  | _, _, _ => none

/-- A number of a version's core. -/
def number (t : Text) : Except VersionError Nat := (Decimal.natural t).mapError .number

/-- The version that a text with blanks around it holds. -/
def parse (t : Text) : Except VersionError Version :=
  match parts? t.trimmed with
  | none => .error (.malformed t)
  | some (major, minor, patch, prerelease, build) => do
    return ⟨← number major, ← number minor, ← number patch, prerelease, build⟩

/-- The version that a value holds as a text. -/
def ofJson : Json → Except VersionError Version
  | .str t => parse t
  | value => .error (.notText value.kindName)

/-- The three numbers with points between them. -/
def coreText (v : Version) : Text :=
  Text.ofNat v.major ++ "." ++ Text.ofNat v.minor ++ "." ++ Text.ofNat v.patch

/-- Identifiers after the sign that introduces them; nothing if there are none. -/
def part (sign : Text) (identifiers : List Text) : Text :=
  if identifiers.isEmpty then [] else sign ++ Text.joined "." identifiers

/-- The text of a version. -/
def toText (v : Version) : Text := v.coreText ++ part "-" v.prerelease ++ part "+" v.build

end Version

end ModulePackaging
