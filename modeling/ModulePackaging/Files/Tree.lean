import ModulePackaging.Files.Error
import ModulePackaging.Text.Utf8

/-!
# A tree of files

The files and directories that the program sees, as a value: every location that is there, with
what is there. Operations give the tree after them, or refuse as a file system does and leave it as
it was. Locations are lists of names from the root; there are no links, so a double dot leads one
name back.
-/

namespace ModulePackaging.Files

/-- A place in the tree: the names from the root. -/
abbrev Location := List Text

/-- What is at a location. -/
inductive Node
  | file (content : Bytes) (mode : Nat)
  | directory
  deriving DecidableEq

/-- All that is there, and the directory that relative paths start from. -/
structure Tree where
  home : Location
  nodes : List (Location × Node)

namespace Tree

/-- The mode of a new file, unless another one is asked for. -/
def defaultMode : Nat := 0o644

/-- What is at a location. -/
def node? (tree : Tree) (location : Location) : Option Node :=
  if location.isEmpty then some .directory
  else (tree.nodes.find? fun entry => entry.1 == location).map Prod.snd

/-- The tree with something put at a location. -/
def set (tree : Tree) (location : Location) (node : Node) : Tree :=
  { tree with nodes := (tree.nodes.filter fun entry => entry.1 != location) ++ [(location, node)] }

/-- The tree without what is at a location or below it. -/
def erase (tree : Tree) (location : Location) : Tree :=
  { tree with nodes := tree.nodes.filter fun entry => !location.isPrefixOf entry.1 }

/-- A tree that holds nothing but its home and the directories above it. -/
def empty (home : Location) : Tree :=
  ⟨home, (List.range home.length).map fun n => (home.take (n + 1), .directory)⟩

/-- The most bytes that a name may have. -/
def nameLimit : Nat := 255

/-- The most bytes that the text of a path may have. -/
def pathLimit : Nat := 4095

/-- The bytes of a path's text, if it can name a file. -/
def pathBytes (p : Path) : Except Error Bytes :=
  match Codec.fileName.firstMissing? p.toText with
  | some e => .error (.unencodable e)
  | none =>
    let bytes := p.toText.flatMap Utf8.encodePoint
    if bytes.contains 0 then .error .nullByte else .ok bytes

/-- Follows names from a location; every name but the last must lead to a directory. -/
def follow (tree : Tree) (location : Location) : List Text → Except Errno Location
  | [] => .ok location
  | name :: rest =>
    match tree.node? location with
    | none => .error .notFound
    | some (.file _ _) => .error .notDirectory
    | some .directory =>
      if (name.flatMap Utf8.encodePoint).length > nameLimit then .error .nameTooLong
      else if name = ([0x2E, 0x2E] : Text) then follow tree location.dropLast rest
      else follow tree (location ++ [name]) rest

/-- The location that a path leads to, whether or not something is there. -/
def locate (tree : Tree) (p : Path) : Except Error (Except Errno Location) := do
  let bytes ← pathBytes p
  if bytes.length > pathLimit then return .error .nameTooLong
  return follow tree (if p.isAbsolute then [] else tree.home) p.parts

/-- The location that a path leads to, or the refusal. -/
def resolve (tree : Tree) (p : Path) : Except Error Location := do
  match ← tree.locate p with
  | .ok location => return location
  | .error errno => throw (.refused errno p.toText)

/-- What a path leads to. A path that cannot name a file leads to nothing; only a name that is too
long is refused. -/
def lookup (tree : Tree) (p : Path) : Except Error (Option Node) :=
  match tree.locate p with
  | .error _ => .ok none
  | .ok (.ok location) => .ok (tree.node? location)
  | .ok (.error .nameTooLong) => .error (.refused .nameTooLong p.toText)
  | .ok (.error _) => .ok none

/-- Whether a path leads to something. -/
def holds (tree : Tree) (p : Path) : Except Error Bool := do return (← tree.lookup p).isSome

/-- Whether a path leads to a directory. -/
def isDirectory (tree : Tree) (p : Path) : Except Error Bool := do
  return match ← tree.lookup p with
    | some .directory => true
    | _ => false

/-- Whether a path leads to a file. -/
def isFile (tree : Tree) (p : Path) : Except Error Bool := do
  return match ← tree.lookup p with
    | some (.file _ _) => true
    | _ => false

/-- The content of a file. -/
def read (tree : Tree) (p : Path) : Except Error Bytes := do
  let location ← tree.resolve p
  match tree.node? location with
  | some (.file content _) => return content
  | some .directory => throw (.refused .isDirectory p.toText)
  | none => throw (.refused .notFound p.toText)

/-- Puts content into a file. A new file gets the given mode; one that is there keeps its own. -/
def write (tree : Tree) (p : Path) (content : Bytes) (mode : Nat) :
    Except Error Tree := do
  let location ← tree.resolve p
  match tree.node? location with
  | some (.file _ kept) => return tree.set location (.file content kept)
  | some .directory => throw (.refused .isDirectory p.toText)
  | none =>
    match tree.node? location.dropLast with
    | some .directory => return tree.set location (.file content mode)
    | some (.file _ _) => throw (.refused .notDirectory p.toText)
    | none => throw (.refused .notFound p.toText)

/-- Makes one directory, in a directory that is there. -/
def makeDirectory (tree : Tree) (p : Path) : Except Error Tree := do
  let location ← tree.resolve p
  match tree.node? location with
  | some _ => throw (.refused .taken p.toText)
  | none =>
    match tree.node? location.dropLast with
    | some .directory => return tree.set location .directory
    | some (.file _ _) => throw (.refused .notDirectory p.toText)
    | none => throw (.refused .notFound p.toText)

/-- Makes a directory, unless it is there. -/
def ensureDirectory (tree : Tree) (p : Path) : Except Error Tree :=
  match tree.makeDirectory p with
  | .ok made => .ok made
  | .error e =>
    match e with
    | .refused _ _ =>
      match tree.isDirectory p with
      | .ok true => .ok tree
      | .ok false => .error e
      | .error e => .error e
    | _ => .error e

/-- The files after an operation that may have changed some before it was refused. -/
abbrev Change := Tree × Option Error

/-- Makes a directory, unless it is there, after a change that went well. -/
def Change.thenDirectory (change : Change) (p : Path) : Change :=
  match change with
  | (tree, some e) => (tree, some e)
  | (tree, none) =>
    match tree.ensureDirectory p with
    | .ok made => (made, none)
    | .error e => (tree, some e)

/-- Makes a directory and those above it, `parts` names up, unless they are there. Those that are
made before a refusal stay. -/
def makeParents (tree : Tree) (p : Path) : Nat → Change
  | 0 => Change.thenDirectory (tree, none) p
  | parts + 1 =>
    match tree.makeDirectory p with
    | .error (.refused .notFound t) =>
      if p.parent = p then (tree, some (.refused .notFound t))
      else (tree.makeParents p.parent parts).thenDirectory p
    | _ => Change.thenDirectory (tree, none) p

/-- Makes a directory and all those above it that are missing. -/
def makeDirectories (tree : Tree) (p : Path) : Change := tree.makeParents p p.parts.length

/-- The refusal of an operation on two paths. -/
def pairRefusal (p q : Path) (errno : Errno) : Error := .refusedPair errno p.toText q.toText

/-- The location of a path that is one of two. -/
def resolveOf (tree : Tree) (p q wanted : Path) : Except Error Location := do
  match ← tree.locate wanted with
  | .ok location => return location
  | .error errno => throw (pairRefusal p q errno)

/-- The file at the first of two paths, and the location of the second one. -/
def sourceAndTarget (tree : Tree) (p q : Path) :
    Except Error (Location × Bytes × Nat × Location) := do
  let source ← tree.resolveOf p q p
  let target ← tree.resolveOf p q q
  match tree.node? source with
  | some (.file content mode) =>
    match tree.node? target.dropLast with
    | some .directory => return (source, content, mode, target)
    | some (.file _ _) => throw (pairRefusal p q .notDirectory)
    | none => throw (pairRefusal p q .notFound)
  | some .directory => throw (pairRefusal p q .permissionDenied)
  | none => throw (pairRefusal p q .notFound)

/-- Moves a file over whatever file is at the target. -/
def replace (tree : Tree) (p q : Path) : Except Error Tree := do
  let (source, content, mode, target) ← tree.sourceAndTarget p q
  match tree.node? target with
  | some .directory => throw (pairRefusal p q .isDirectory)
  | _ => return (tree.erase source).set target (.file content mode)

/-- Puts the content of a file at a target where nothing is. -/
def link (tree : Tree) (p q : Path) : Except Error Tree := do
  let (_, content, mode, target) ← tree.sourceAndTarget p q
  match tree.node? target with
  | some _ => throw (pairRefusal p q .taken)
  | none => return tree.set target (.file content mode)

/-- Takes away what a path leads to, and all below it. -/
def remove (tree : Tree) (p : Path) : Except Error Tree := do
  let location ← tree.resolve p
  match tree.node? location with
  | some _ => return tree.erase location
  | none => throw (.refused .notFound p.toText)

/-- The names of all that is below a location, a directory's with a slash at its end. -/
def below (tree : Tree) (location : Location) : List Text :=
  tree.nodes.filterMap fun (place, node) =>
    if location.isPrefixOf place && place.length > location.length then
      let name := Text.joined [Path.slash] (place.drop location.length)
      some (match node with
        | .directory => name ++ [Path.slash]
        | .file _ _ => name)
    else none

end Tree

end ModulePackaging.Files
