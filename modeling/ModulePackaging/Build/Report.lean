import ModulePackaging.Build.Basic

/-!
# Build reports

A job is a build that only names files, as a command line gives it. Running one never ends in a
failed build: what happened is told in a report. Several jobs give their reports in the order of the
jobs; one that fails does not touch the others.
-/

namespace ModulePackaging

/-- A build that only names files. The matrix is the one in a file, if a file is named. -/
structure BuildJob where
  source : Path
  target : Json
  key : Option Path
  overrides : Members
  outDir : Option Path
  overwrite : Bool
  strict : Bool
  ledger : Option Path
  matrix : Option Path

/-- What happened to a job. -/
structure BuildReport where
  succeeded : Bool
  stage : Text
  target : Json
  resolved : Option Text
  archive : Option Path
  kid : Option Text
  warnings : List Text
  errors : List Fault

namespace BuildJob

variable (job : BuildJob)

/-- The build that a job asks for. -/
def request : BuildRequest where
  source := job.source
  target := job.target
  key :=
    match job.key with
    | some p => .file p
    | none => .handle .absent
  overrides := job.overrides
  strict := job.strict
  toolchain := none
  outDir := job.outDir
  overwrite := job.overwrite
  ledger := job.ledger
  extra := []

end BuildJob

namespace BuildReport

/-- A report as an object. -/
def toJson (report : BuildReport) : Json := .obj [
  ("ok", .bool report.succeeded),
  ("stage", .str report.stage),
  ("target_version", report.target),
  ("resolved_version", .ofText? report.resolved),
  ("archive_path", .ofText? (report.archive.map Path.toText)),
  ("kid", .ofText? report.kid),
  ("warnings", .texts report.warnings),
  ("errors", .arr (report.errors.map Fault.toJson))]

/-- The report of a build that succeeded. -/
def ofResult (target : Json) (result : BuildResult) : BuildReport where
  succeeded := true
  stage := BuildStage.done.name
  target := target
  resolved := some result.target.entry.version.toText
  archive := some result.path
  kid := some result.archive.signature.kid
  warnings := result.target.warning?.toList
  errors := []

/-- The report of a build that failed in a stage. -/
def ofFailure (target : Json) (stage : Text) (fault : Fault) : BuildReport where
  succeeded := false
  stage := stage
  target := target
  resolved := none
  archive := none
  kid := none
  warnings := []
  errors := [fault]

/-- The report of a fault. A matrix that cannot be loaded fails in the stage that would use it; any
other fault outside of a build is not reported. -/
def ofFault? (target : Json) (fault : Fault) : Option BuildReport :=
  match fault with
  | .failedBuild p _ => some (ofFailure target (p.stage.getD "Failed") fault)
  | _ =>
    if fault.isBadValue || fault.isSystem then
      some (ofFailure target BuildStage.matrixCheck.name (BuildStage.matrixCheck.failed fault))
    else none

end BuildReport

namespace BuildJob

/-- The matrix that a job is built with: the given one, or the one in its file, or the built-in
one. -/
def matrixFor (job : BuildJob) (given : Option Matrix) : Action Matrix :=
  match given, job.matrix with
  | some matrix, _ => pure matrix
  | none, some p => MatrixTable.loadMatrix p
  | none, none => pure Releases.matrix

/-- Runs a job and reports. -/
def run (machine : Machine) (given : Option Matrix) (job : BuildJob) : Action BuildReport :=
  tryCatch
    (do
      let result ← build machine (← job.matrixFor given) job.request
      return .ofResult job.target result)
    fun fault =>
      match BuildReport.ofFault? job.target fault with
      | some report => pure report
      | none => throw fault

/-- Checks how many jobs may run at the same time. Zero leaves the choice to the program. -/
def checkWorkers (workers : Option Int) : Action Unit :=
  match workers with
  | some n => if n < 0 then throw (.badValue "max_workers must be greater than 0") else pure ()
  | none => pure ()

/-- Runs jobs with one matrix, each by itself. -/
def runAll (machine : Machine) (given : Option Matrix) (workers : Option Int)
    (jobs : List BuildJob) : Action (List BuildReport) := do
  if jobs.isEmpty then return []
  checkWorkers workers
  jobs.mapM (run machine (some (given.getD Releases.matrix)))

end BuildJob

end ModulePackaging
