import ModulePackaging.Text.Basic

/-!
# Paths

A path is a start and a list of parts. Reading a text drops empty parts and single dots, and keeps
double dots, which only the files themselves can resolve. Exactly two slashes at the start are kept
apart from one.
-/

namespace ModulePackaging

/-- Where a path starts. -/
inductive Anchor
  | relative
  | root
  | doubleRoot
  deriving DecidableEq

/-- The text of a start. -/
def Anchor.text : Anchor → Text
  | relative => []
  | root => "/"
  | doubleRoot => "//"

/-- A path: where it starts and the names on it. -/
structure Path where
  anchor : Anchor
  parts : List Text
  deriving DecidableEq

namespace Path

/-- The sign between the parts of a path. -/
def slash : CodePoint := 0x2F

/-- The start that a number of slashes stands for. -/
def anchorOf : Nat → Anchor
  | 0 => .relative
  | 2 => .doubleRoot
  | _ => .root

/-- Whether a part of a text counts as a part of the path. -/
def isPart (t : Text) : Bool := !t.isEmpty && t != ([0x2E] : Text)

/-- The path that a text stands for. -/
def ofText (t : Text) : Path :=
  let slashes := (t.takeWhile (· == slash)).length
  ⟨anchorOf slashes, (Text.splitOn slash (t.drop slashes)).filter isPart⟩

instance : Coe Text Path := ⟨ofText⟩

variable (p : Path)

/-- Whether a path starts at the root. -/
def isAbsolute : Bool := p.anchor != .relative

/-- The text of a path; the path without parts is a dot. -/
def toText : Text :=
  let t := p.anchor.text ++ Text.joined [slash] p.parts
  if t.isEmpty then "." else t

/-- The path that `q` names when it starts at `p`. -/
def join (q : Path) : Path := if q.isAbsolute then q else ⟨p.anchor, p.parts ++ q.parts⟩

instance : HDiv Path Path Path := ⟨join⟩

/-- The path without its last part. -/
def parent : Path := ⟨p.anchor, p.parts.dropLast⟩

/-- The last part of a path. -/
def name : Text := p.parts.getLastD []

/-- The path with another last part; none if there is no part. -/
def withName? (name : Text) : Option Path :=
  if p.parts.isEmpty then none else some ⟨p.anchor, p.parts.dropLast ++ [name]⟩

end Path

end ModulePackaging
