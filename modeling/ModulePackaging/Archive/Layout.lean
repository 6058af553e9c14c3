import ModulePackaging.Fault
import ModulePackaging.Text.CaseFold

/-!
# The layout of archives

Where things are in an archive, and which paths can be there together. A resource has a relative
path without dots, and no two paths may be the same on a file system that ignores case, nor may one
be a directory of another.
-/

namespace ModulePackaging

/-- Why paths cannot be laid out. -/
inductive LayoutConflict
  | absolute (path : Text)
  | empty (path : Text)
  | dotted (path : Text)
  | duplicate (path : Text)
  | caseClash (prior path : Text)
  | fileAndDirectory (file path : Text)
  deriving DecidableEq

namespace LayoutConflict

/-- The refusal in words. -/
def message : LayoutConflict → Text
  | absolute path => "resource path must be relative, got: " ++ path
  | empty path => "resource path must be non-empty, got: " ++ path.quoted
  | dotted path => "resource path must not contain '.' or '..', got: " ++ path
  | duplicate path => "duplicate archive path '" ++ path ++ "'"
  | caseClash prior path =>
    "archive paths '" ++ prior ++ "' and '" ++ path ++ "' differ only by case"
  | fileAndDirectory file path =>
    "archive path '" ++ file ++ "' is both a file and a directory of '" ++ path ++ "'"

/-- The path that is refused. -/
def path : LayoutConflict → Text
  | absolute path | empty path | dotted path | duplicate path => path
  | caseClash _ path | fileAndDirectory _ path => path

/-- The refusal as a problem. -/
def toProblem (e : LayoutConflict) : Problem := .atPath .layoutConflict e.message e.path

end LayoutConflict

namespace Layout

/-- The member that describes an archive. -/
def manifestPath : Text := "manifest.json"

/-- The directory of the resources, with its slash. -/
def resourcesStart : Text := "resources/"

/-- The ending of archive files. -/
def archiveSuffix : Text := ".spkg"

/-- The path of a resource in an archive. -/
def resourcePath (path : Text) : Text := resourcesStart ++ path

/-- Whether a segment is a dot or two. -/
def isDots (segment : Text) : Bool := segment == ([0x2E] : Text) || segment == ([0x2E, 0x2E] : Text)

/-- The path of a resource in its normal form: segments between single slashes. Backslashes separate
segments too. -/
def normalize (path : Text) : Except LayoutConflict Text :=
  let slashed := path.replacing '\\' '/'
  let p := Path.ofText slashed
  if p.isAbsolute then .error (.absolute path)
  else if p.parts.isEmpty then .error (.empty path)
  else if (slashed.splitOn '/').any isDots then .error (.dotted path)
  else .ok p.toText

/-- The path that a folded path stands for, among the paths so far. -/
def findFolded? (seen : List (Text × Text)) (folded : Text) : Option Text :=
  (seen.find? fun entry => entry.1 == folded).map Prod.snd

/-- The paths with their folded forms, if no two folded forms are equal. -/
def foldAll (seen : List (Text × Text)) : List Text → Except LayoutConflict (List (Text × Text))
  | [] => .ok seen
  | path :: rest =>
    match findFolded? seen path.caseFold with
    | some prior => .error (if prior = path then .duplicate path else .caseClash prior path)
    | none => foldAll (seen ++ [(path.caseFold, path)]) rest

/-- The directories above a path, the outermost first. -/
def directoriesOf (path : Text) : List Text :=
  let segments := path.splitOn '/'
  (List.range (segments.length - 1)).map fun n => Text.joined [0x2F] (segments.take (n + 1))

/-- Checks that none of the directories above a path is a file. -/
def checkDirectories (seen : List (Text × Text)) (path : Text) : Except LayoutConflict Unit :=
  match (directoriesOf path.caseFold).findSome? (findFolded? seen) with
  | some file => .error (.fileAndDirectory file path)
  | none => .ok ()

/-- Checks the directories above each path. -/
def checkAllDirectories (seen : List (Text × Text)) : List Text → Except LayoutConflict Unit
  | [] => .ok ()
  | path :: rest => do
    checkDirectories seen path
    checkAllDirectories seen rest

/-- Checks that paths can be together in an archive. -/
def check (paths : List Text) : Except LayoutConflict Unit := do
  let seen ← foldAll [] paths
  checkAllDirectories seen paths

end Layout

end ModulePackaging
