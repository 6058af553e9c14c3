import ModulePackaging.Archive.Read
import ModulePackaging.Build.Report
import ModulePackaging.CommandLine.Options
import ModulePackaging.HostApi.Changes

/-!
# Running commands

Does what a command line orders, and says what is printed and how the program ends. The program ends
with 0 if all went well and with 2 if an order was refused; a fault that no command expects goes on
to the caller.
-/

namespace ModulePackaging.CommandLine

/-- What a command prints, line by line, and how the program ends. -/
structure Printout where
  code : Nat
  output : List Text
  errors : List Text

namespace Printout

/-- The code of a program that did what it was told. -/
def done : Nat := 0

/-- The code of a program that refused. -/
def refused : Nat := 2

/-- Prints lines and ends well. -/
def lines (output : List Text) : Printout := ⟨done, output, []⟩

/-- Refuses with a line. -/
def refusal (line : Text) : Printout := ⟨refused, [], [line]⟩

/-- Refuses in the name of a program. -/
def usageError (program message : Text) : Printout := refusal (program ++ ": error: " ++ message)

/-- Prints a value, on one line or indented. -/
def value (v : Json) (json : Bool) : Printout :=
  lines [if json then v.compactText else v.indentedText]

/-- Ends as it is told. -/
def withSuccess (p : Printout) (ok : Bool) : Printout :=
  { p with code := if ok then done else refused }

end Printout

/-- The matrix in a file, or the built-in one. -/
def loadMatrix : Option Path → Action Matrix
  | some p => MatrixTable.loadMatrix p
  | none => pure Releases.matrix

namespace BuildOptions

/-- The jobs that are ordered, one for each target. -/
def jobs (o : BuildOptions) (environment : Members) : List BuildJob :=
  let overrides :=
    if o.strict then Override.collectAll environment else Override.collect environment
  o.targets.map fun target =>
    ⟨o.source, .str target, some o.key, overrides, o.outDir, o.overwrite, o.strict, o.ledger, none⟩

/-- What the reports say to a reader. -/
def readable (reports : List BuildReport) : Printout where
  code := Printout.done
  output := reports.flatMap fun r =>
    if r.succeeded then (r.archive.map Path.toText).toList else []
  errors := reports.flatMap fun r =>
    r.warnings.map (fun warning => ("warning: " ++ warning : Text)) ++
      if r.succeeded then [] else r.errors.map Fault.line

/-- What the reports say to a program. -/
def machineReadable (ok : Bool) (reports : List BuildReport) : Printout :=
  .value (.obj [("ok", .bool ok), ("builds", .arr (reports.map BuildReport.toJson))]) true

/-- Builds. -/
def run (machine : Machine) (environment : Members) (o : BuildOptions) : Action Printout := do
  let matrix ← loadMatrix o.matrix
  let reports ←
    match o.jobs environment with
    | [job] => do pure [← job.run machine (some matrix)]
    | jobs => BuildJob.runAll machine (some matrix) o.workers jobs
  let ok := reports.all (·.succeeded)
  return (if o.json then machineReadable ok reports else readable reports).withSuccess ok

end BuildOptions

/-- What is told about the check of a signature. -/
def verified (archive : Archive) (p : Path) (ok json : Bool) : Printout :=
  let name := archive.descriptor.value .name
  let version := archive.descriptor.value .version
  let kid := archive.signature.kid
  if json then
    let told := .obj [("ok", .bool ok), ("name", name), ("version", version), ("kid", .str kid)]
    (Printout.value told true).withSuccess ok
  else if ok then
    .lines ["ok: " ++ name.inMessage ++ " " ++ version.inMessage ++ " signed by " ++ kid]
  else .refusal ("untrusted: signature verification failed for " ++ p.toText)

/-- A problem as it is printed; any other fault goes on. -/
def printProblem (json : Bool) (fault : Fault) : Action Printout :=
  if !fault.isProblem then throw fault
  else if json then
    let report := Json.obj [("ok", .bool false), ("error", fault.toJson)]
    return (Printout.value report true).withSuccess false
  else return .refusal fault.line

/-- Checks the signature of an archive. Without a list of signers, the one it names is trusted. -/
def runVerify (p : Path) (trusted : List Text) (json : Bool) : Action Printout :=
  match trusted.mapM Base64.decode with
  | .error e => return .refusal ("invalid --trusted-identity: " ++ e.message)
  | .ok identities => do
    match ← Action.attempt (Archive.read p) with
    | .error fault => printProblem json fault
    | .ok archive => do
      let ok ← archive.verify (if identities.isEmpty then none else some identities)
      return verified archive p ok json

/-- The value of a manifest, which an archive that was read has. -/
def manifestOf (archive : Archive) : Json :=
  match Archive.manifestValue archive.manifest with
  | .ok value => value
  | .error _ => .null

/-- Shows the manifest of an archive. -/
def runInspect (p : Path) : Action Printout :=
  tryCatch (return .value (manifestOf (← Archive.read p)) false) (printProblem false)

/-- Makes a key. -/
def runKeygen (options : KeygenOptions) (chance : Bytes) : Action Printout :=
  tryCatch (return .lines (← Keygen.run options chance).2) fun fault =>
    return .usageError Grammar.top.program fault.line

namespace MatrixCommand

/-- What a version resolves to, as an object. -/
def targetJson (target : Target) : Json := .obj [
  ("requested", .str target.requested.toText),
  ("resolved", .str target.entry.version.toText),
  ("exact", .bool target.exact),
  ("beyond_newest", .bool target.beyondNewest),
  ("feature_flags", .texts target.entry.flags),
  ("defines", .texts (compileDefines target.entry))]

/-- The lowest version to list. -/
def floor (since : Option Text) : Except VersionError (Option Version) :=
  match since with
  | some t => (Version.parse t).map some
  | none => .ok none

/-- Answers a question about a matrix. -/
def answer (matrix : Matrix) : MatrixCommand → Action Printout
  | list since withPrereleases json => do
    let low ← Action.ofExcept .ofVersion (floor since)
    let versions ← Action.ofExcept .ofVersion (matrix.versionsSince low withPrereleases)
    let texts := versions.map Version.toText
    return if json then .value (.texts texts) true else .lines texts
  | resolve version json => do
    let target ← Action.ofExcept MatrixError.toFault (matrix.resolveJson (.str version))
    Action.noteAll target.records
    return .value (targetJson target) json
  | diff older newer json => do
    let d ← Action.ofExcept MatrixError.toFault (matrix.diffJson (.str older) (.str newer))
    return .value d.toJson json
  | changes json => do
    let diffs ← Action.ofExcept MatrixError.toFault matrix.changes
    return .value (.arr (diffs.map FeatureDiff.toJson)) json
  | append .. => return .lines []

/-- Appends a version to a table. -/
def appendTo (table : Option Path) (row : MatrixRow) : Action Printout :=
  match table with
  | none => throw (.badValue "matrix append requires --matrix <table.json>")
  | some p => do
    MatrixTable.append p row
    return .lines []

/-- Does what is ordered about versions of the host. -/
def run (table : Option Path) (command : MatrixCommand) : Action Printout :=
  let work : Action Printout :=
    match command with
    | append version added removed forwardCompatible =>
      appendTo table ⟨version, added, removed, forwardCompatible, false⟩
    | question => do answer (← loadMatrix table) question
  tryCatch work fun fault =>
    if fault.isBadValue then return .usageError Grammar.top.program fault.line
    else printProblem false fault

end MatrixCommand

/-- Does what is ordered. -/
def Command.run (machine : Machine) (environment : Members) (chance : Bytes) :
    Command → Action Printout
  | build options => options.run machine environment
  | verify archive trusted json => runVerify archive trusted json
  | inspect archive => runInspect archive
  | keygen out algorithm tellIdentity tellKid force =>
    runKeygen ⟨out, algorithm, tellIdentity, tellKid, force⟩ chance
  | matrix table command => command.run table

/-- The lowest level of the log that is shown. -/
def levelOf (verbosity : Nat) : LogLevel :=
  match verbosity with
  | 0 => .warning
  | 1 => .info
  | _ => .debug

/-- What the program leaves behind: the code it ends with and what it printed. -/
structure Result where
  code : Nat
  output : Text
  errors : Text

/-- Lines as one text, each with its end. -/
def textOf (lines : List Text) : Text := lines.flatMap (· ++ "\n")

/-- What the program leaves behind after a printout. The log comes before what is printed. -/
def Printout.result (p : Printout) (shown : List LogRecord) : Result :=
  ⟨p.code, textOf p.output, textOf (shown.map LogRecord.line) ++ textOf p.errors⟩

/-- Runs the program with its arguments, the variables it finds and bytes of chance. -/
def run (machine : Machine) (environment : Members) (chance : Bytes) (arguments : List Text) :
    Action Result :=
  match readOrder arguments with
  | .error (.help program) => return (Printout.lines ["usage: " ++ program]).result []
  | .error (.refused program message) => return (Printout.usageError program message).result []
  | .ok order => do
    let before := (← get).log.length
    let printout ← order.command.run machine environment chance
    let records := (← get).log.drop before
    return printout.result (records.filter (·.reaches (levelOf order.verbosity)))

end ModulePackaging.CommandLine
