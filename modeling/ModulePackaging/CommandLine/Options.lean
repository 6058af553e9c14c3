import ModulePackaging.CommandLine.Grammar
import ModulePackaging.Files.Path
import ModulePackaging.Signing.Key

/-!
# Commands

What the program can be told to do, and how command lines say it.
-/

namespace ModulePackaging.CommandLine

/-- How to build. -/
structure BuildOptions where
  source : Path
  targets : List Text
  key : Path
  outDir : Option Path
  overwrite : Bool
  strict : Bool
  ledger : Option Path
  matrix : Option Path
  workers : Option Int
  json : Bool

/-- A question about the versions of the host, or a new version. -/
inductive MatrixCommand
  | list (since : Option Text) (withPrereleases json : Bool)
  | resolve (version : Text) (json : Bool)
  | diff (older newer : Text) (json : Bool)
  | changes (json : Bool)
  | append (version : Text) (added removed : List Text) (forwardCompatible : Bool)

/-- What to do. -/
inductive Command
  | build (options : BuildOptions)
  | verify (archive : Path) (trusted : List Text) (json : Bool)
  | inspect (archive : Path)
  | keygen (out : Path) (algorithm : Algorithm) (tellIdentity tellKid force : Bool)
  | matrix (table : Option Path) (command : MatrixCommand)

/-- What to do, and how much of the log to show. -/
structure Order where
  verbosity : Nat
  command : Command

/-- The option that shows how the program is used. -/
def helpChoice : Item := .choice ⟨["-h", "--help"], .help, false⟩

/-- An option that is there or not. -/
def flag (name : Text) : Item := .choice ⟨[name], .flag, false⟩

/-- An option with a value. -/
def valued (name : Text) : Item := .choice ⟨[name], .value, false⟩

/-- An option with a value that must be given. -/
def needed (name : Text) : Item := .choice ⟨[name], .value, true⟩

namespace Grammar

/-- The command lines of the program. -/
def top : Grammar := ⟨"simpack", [
  helpChoice, .choice ⟨["-v", "--verbose"], .flag, false⟩,
  .command "cmd" ["build", "verify", "inspect", "keygen", "matrix"]]⟩

/-- What follows the command that builds. -/
def build : Grammar := ⟨"simpack build", [
  helpChoice, .operand "source", needed "--host-api", needed "--key", valued "--out-dir",
  flag "--overwrite", flag "--strict-overrides", valued "--ledger", valued "--matrix",
  .choice ⟨["--jobs"], .number, false⟩, flag "--json"]⟩

/-- What follows the command that verifies. -/
def verify : Grammar := ⟨"simpack verify", [
  helpChoice, .operand "archive", valued "--trusted-identity", flag "--json"]⟩

/-- What follows the command that shows a manifest. -/
def inspect : Grammar := ⟨"simpack inspect", [helpChoice, .operand "archive"]⟩

/-- What follows the command that makes keys. -/
def keygen : Grammar := ⟨"simpack keygen", [
  helpChoice, needed "--out",
  .choice ⟨["--algorithm"], .choice (Algorithm.all.map Algorithm.name), false⟩,
  flag "--print-identity", flag "--print-kid", flag "--force"]⟩

/-- What follows the command about versions of the host. -/
def matrix : Grammar := ⟨"simpack matrix", [
  helpChoice, valued "--matrix",
  .command "matrix_cmd" ["list", "resolve", "diff", "changes", "append"]]⟩

/-- What follows the command that lists versions. -/
def matrixList : Grammar := ⟨"simpack matrix list", [
  helpChoice, valued "--since", flag "--include-prerelease", flag "--json"]⟩

/-- What follows the command that resolves a version. -/
def matrixResolve : Grammar := ⟨"simpack matrix resolve", [
  helpChoice, .operand "version", flag "--json"]⟩

/-- What follows the command that compares versions. -/
def matrixDiff : Grammar := ⟨"simpack matrix diff", [
  helpChoice, .operand "older", .operand "newer", flag "--json"]⟩

/-- What follows the command that shows all changes. -/
def matrixChanges : Grammar := ⟨"simpack matrix changes", [helpChoice, flag "--json"]⟩

/-- What follows the command that appends a version. -/
def matrixAppend : Grammar := ⟨"simpack matrix append", [
  helpChoice, .operand "version", valued "--add", valued "--remove",
  flag "--not-forward-compatible"]⟩

end Grammar

namespace Reading

variable (r : Reading)

/-- The text of an operand. -/
def operand (name : Text) : Text := (r.value? name).getD []

/-- The path of an operand. -/
def path (name : Text) : Path := Path.ofText (r.operand name)

/-- The path that an option gives. -/
def path? (name : Text) : Option Path := (r.value? name).map Path.ofText

/-- The number that an option gives. -/
def number? (name : Text) : Option Int :=
  (r.value? name).bind fun t => (Decimal.whole t).toOption

end Reading

/-- How to build, from what follows the command. -/
def readBuild (arguments : List Text) : Except UsageError (Command × List Text) := do
  let r ← Grammar.build.read arguments
  return (.build {
    source := r.path "source", targets := r.values "--host-api", key := r.path "--key"
    outDir := r.path? "--out-dir", overwrite := r.has "--overwrite"
    strict := r.has "--strict-overrides", ledger := r.path? "--ledger"
    matrix := r.path? "--matrix", workers := r.number? "--jobs", json := r.has "--json" }, r.extras)

/-- A command about versions of the host, from its name and what follows it. -/
def readMatrixCommand (arguments : List Text) :
    Except UsageError (MatrixCommand × List Text) :=
  let name := arguments.headD []
  let rest := arguments.tail
  if name = ("list" : Text) then do
    let r ← Grammar.matrixList.read rest
    return (.list (r.value? "--since") (r.has "--include-prerelease") (r.has "--json"), r.extras)
  else if name = ("resolve" : Text) then do
    let r ← Grammar.matrixResolve.read rest
    return (.resolve (r.operand "version") (r.has "--json"), r.extras)
  else if name = ("diff" : Text) then do
    let r ← Grammar.matrixDiff.read rest
    return (.diff (r.operand "older") (r.operand "newer") (r.has "--json"), r.extras)
  else if name = ("changes" : Text) then do
    let r ← Grammar.matrixChanges.read rest
    return (.changes (r.has "--json"), r.extras)
  else do
    let r ← Grammar.matrixAppend.read rest
    return (.append (r.operand "version") (r.values "--add") (r.values "--remove")
      (!r.has "--not-forward-compatible"), r.extras)

/-- A command, from its name and what follows it. -/
def readCommand (arguments : List Text) : Except UsageError (Command × List Text) :=
  let name := arguments.headD []
  let rest := arguments.tail
  if name = ("build" : Text) then readBuild rest
  else if name = ("verify" : Text) then do
    let r ← Grammar.verify.read rest
    return (.verify (r.path "archive") (r.values "--trusted-identity") (r.has "--json"), r.extras)
  else if name = ("inspect" : Text) then do
    let r ← Grammar.inspect.read rest
    return (.inspect (r.path "archive"), r.extras)
  else if name = ("keygen" : Text) then do
    let r ← Grammar.keygen.read rest
    let algorithm := ((r.value? "--algorithm").bind Algorithm.ofName?).getD .ed25519
    return (.keygen (r.path "--out") algorithm (r.has "--print-identity") (r.has "--print-kid")
      (r.has "--force"), r.extras)
  else do
    let r ← Grammar.matrix.read rest
    let (command, extras) ← readMatrixCommand r.command
    return (.matrix (r.path? "--matrix") command, r.extras ++ extras)

/-- What a command line orders. Arguments that no level understands are refused at the end. -/
def readOrder (arguments : List Text) : Except UsageError Order := do
  let r ← Grammar.top.read arguments
  let (command, extras) ← readCommand r.command
  let extras := r.extras ++ extras
  if !extras.isEmpty then
    Grammar.top.refuse ("unrecognized arguments: " ++ Text.joined " " extras)
  return ⟨(r.values "--verbose").length, command⟩

end ModulePackaging.CommandLine
