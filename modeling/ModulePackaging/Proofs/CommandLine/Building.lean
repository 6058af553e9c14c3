import ModulePackaging.CommandLine.Run
import ModulePackaging.Proofs.Build.Several

/-!
# Building from a command line

A command line that orders builds ends with 0 if the archive of each version of the host is
committed and with 2 if a build fails, and what happened to each build is printed. Two orders never
come so far: their faults go on to the caller, as a table of versions that cannot be loaded and a
number of workers that is out of its domain are looked at before any build begins.
-/

namespace ModulePackaging

open Files Files.Tree Action

variable {machine : Machine} {matrix : Matrix} {w w' : Workspace}

/-! ## Jobs in turn -/

namespace BuildJob

variable {job : BuildJob}

/-- A job and the workspace in which its turn comes. -/
abbrev Turn := BuildJob × Workspace

/-- The turns of some jobs: each begins where the build before it ended. -/
def turns (machine : Machine) (matrix : Matrix) : List BuildJob → Workspace → List Turn
  | [], _ => []
  | job :: rest, w =>
    (job, w) :: turns machine matrix rest ((build machine matrix job.request).outcome w).2

/-- What is reported of a job in its turn: the archive that it committed, whose bytes are in their
place then, or the stage in which its build failed and why. -/
inductive Reported (machine : Machine) (matrix : Matrix) : Turn → BuildReport → Prop
  | committed {job : BuildJob} {w w' : Workspace} {built : BuildResult} {bytes : Bytes}
      (ended : (build machine matrix job.request).outcome w = (.ok built, w'))
      (written : built.archive.toBytes = .ok bytes)
      (stored : w'.files.read built.path = .ok bytes) :
      Reported machine matrix (job, w) (.ofResult job.target built)
  | failed {job : BuildJob} {w w' : Workspace} {stage : BuildStage} {cause : Fault}
      (ended : (build machine matrix job.request).outcome w =
        (.error (stage.failed cause), w')) :
      Reported machine matrix (job, w) (.ofFailure job.target stage.name (stage.failed cause))

/-- A turn in which the archive of the job is committed. -/
def Commits (machine : Machine) (matrix : Matrix) (turn : Turn) : Prop :=
  ∃ built w' bytes, (build machine matrix turn.1.request).outcome turn.2 = (.ok built, w') ∧
    built.archive.toBytes = .ok bytes ∧ w'.files.read built.path = .ok bytes

/-- A build that succeeds has put the bytes of its archive into place. -/
theorem read_of_build {request : BuildRequest} {built : BuildResult}
    (h : (build machine matrix request).outcome w = (.ok built, w')) :
    ∃ bytes, built.archive.toBytes = .ok bytes ∧ w'.files.read built.path = .ok bytes := by
  have anywhere : machine.Spares (fun _ _ => True) := fun _ _ _ _ _ => trivial
  obtain ⟨s, bytes, _, rfl, written, stored⟩ := build_succeeds anywhere h
  exact ⟨bytes, written, stored⟩

/-- A job is reported, and it leaves what its build leaves. -/
theorem run_reports (machine : Machine) (matrix : Matrix) (job : BuildJob) (w : Workspace) :
    ∃ report, Reported machine matrix (job, w) report ∧
      (job.run machine (some matrix)).outcome w =
        (.ok report, ((build machine matrix job.request).outcome w).2) := by
  rw [run_eq, outcome_tryCatch, outcome_bind]
  rcases ended : (build machine matrix job.request).outcome w with ⟨result, w'⟩
  cases result with
  | ok built =>
      obtain ⟨bytes, written, stored⟩ := read_of_build ended
      exact ⟨_, .committed ended written stored, rfl⟩
  | error e =>
      obtain ⟨stage, cause, rfl⟩ := build_fails ended
      exact ⟨_, .failed ended, rfl⟩

/-- Jobs are reported in their turns. -/
theorem mapM_run_reports (machine : Machine) (matrix : Matrix) (jobs : List BuildJob)
    (w : Workspace) :
    ∃ reports w', List.Forall₂ (Reported machine matrix) (turns machine matrix jobs w) reports ∧
      (jobs.mapM (run machine (some matrix))).outcome w = (.ok reports, w') := by
  induction jobs generalizing w with
  | nil => exact ⟨[], w, .nil, rfl⟩
  | cons job rest ih =>
      obtain ⟨report, reported, ran⟩ := run_reports machine matrix job w
      obtain ⟨reports, w', others, ended⟩ := ih ((build machine matrix job.request).outcome w).2
      refine ⟨report :: reports, w', .cons reported others, ?_⟩
      rw [List.mapM_cons, outcome_bind, ran]
      simp only
      rw [outcome_bind, ended]
      rfl

/-- With a number of workers in its domain, jobs run one after another. -/
theorem outcome_runAll {workers : Option Int} (enough : ∀ n, workers = some n → ¬ n < 0)
    (first : BuildJob) (rest : List BuildJob) (w : Workspace) :
    (runAll machine (some matrix) workers (first :: rest)).outcome w =
      ((first :: rest).mapM (run machine (some matrix))).outcome w := by
  have passes : (checkWorkers workers).outcome w = (.ok (), w) := by
    unfold checkWorkers
    cases given : workers with
    | none => rfl
    | some n =>
        simp only
        rw [if_neg (enough n given)]
        rfl
  unfold runAll
  simp only [List.isEmpty_cons, Bool.false_eq_true, if_false]
  rw [outcome_bind, passes]
  rfl

/-- With a negative number of workers, no job is begun. -/
theorem outcome_runAll_of_negative {n : Int} (negative : n < 0) (first : BuildJob)
    (rest : List BuildJob) (w : Workspace) :
    (runAll machine (some matrix) (some n) (first :: rest)).outcome w =
      (.error (.badValue "max_workers must be greater than 0"), w) := by
  unfold runAll checkWorkers
  simp only
  rw [if_pos negative]
  rfl

/-- A report tells of success exactly if the archive is committed. -/
theorem Reported.succeeded_iff {turn : Turn} {report : BuildReport}
    (h : Reported machine matrix turn report) :
    report.succeeded = true ↔ Commits machine matrix turn := by
  cases h with
  | committed ended written stored => exact iff_of_true rfl ⟨_, _, _, ended, written, stored⟩
  | failed ended =>
      refine iff_of_false (by simp [BuildReport.ofFailure]) ?_
      rintro ⟨built, w', bytes, same, _⟩
      rw [ended] at same
      exact absurd (congrArg Prod.fst same) (by simp)

/-- Each report is that of a turn. -/
theorem exists_turn {turns : List Turn} {reports : List BuildReport} {report : BuildReport}
    (h : List.Forall₂ (Reported machine matrix) turns reports) (member : report ∈ reports) :
    ∃ turn ∈ turns, Reported machine matrix turn report := by
  induction h with
  | nil => exact absurd member List.not_mem_nil
  | cons reported _ ih =>
      rcases List.mem_cons.mp member with rfl | inside
      · exact ⟨_, List.mem_cons_self, reported⟩
      · obtain ⟨turn, there, other⟩ := ih inside
        exact ⟨turn, List.mem_cons_of_mem _ there, other⟩

/-- All reports tell of success exactly if all archives are committed. -/
theorem all_succeeded_iff {turns : List Turn} {reports : List BuildReport}
    (h : List.Forall₂ (Reported machine matrix) turns reports) :
    reports.all (·.succeeded) = true ↔ ∀ turn ∈ turns, Commits machine matrix turn := by
  induction h with
  | nil => simp
  | cons reported _ ih =>
      rw [List.all_cons, Bool.and_eq_true, List.forall_mem_cons, ih, reported.succeeded_iff]

end BuildJob

namespace CommandLine

open BuildJob

variable {environment : Members} {chance : Bytes} {arguments : List Text} {order : Order}
  {o : BuildOptions} {fault : Fault}

/-! ## What is printed -/

/-- What reports print: with one line for all in JSON, or else a line for each archive and each
failure. -/
def Tells (json : Bool) (reports : List BuildReport) (ok : Bool) (result : Result) : Prop :=
  if json then
    result.output = (Json.obj [("ok", .bool ok),
      ("builds", .arr (reports.map BuildReport.toJson))]).compactText ++ "\n"
  else
    ∀ report ∈ reports,
      (∀ p, report.archive = some p → (p.toText ++ "\n" : Text) <:+: result.output) ∧
      ∀ fault ∈ report.errors, (fault.line ++ "\n" : Text) <:+: result.errors

theorem infix_textOf {line : Text} {lines : List Text} (h : line ∈ lines) :
    (line ++ "\n" : Text) <:+: textOf lines := by
  obtain ⟨before, behind, rfl⟩ := List.append_of_mem h
  refine ⟨textOf before, textOf behind, ?_⟩
  simp only [textOf, List.flatMap_append, List.flatMap_cons, List.append_assoc]

namespace BuildOptions

/-- What is printed of some reports. -/
def printout (o : BuildOptions) (reports : List BuildReport) : Printout :=
  (if o.json then machineReadable (reports.all (·.succeeded)) reports
    else readable reports).withSuccess (reports.all (·.succeeded))

theorem code_printout (o : BuildOptions) (reports : List BuildReport) (shown : List LogRecord) :
    ((o.printout reports).result shown).code = if reports.all (·.succeeded) then 0 else 2 := rfl

/-- The reports of turns are told, whatever of the log is shown in front of them. -/
theorem tells_printout (o : BuildOptions) {turns : List Turn} {reports : List BuildReport}
    (reported : List.Forall₂ (Reported machine matrix) turns reports) (shown : List LogRecord) :
    Tells o.json reports (reports.all (·.succeeded)) ((o.printout reports).result shown) := by
  unfold Tells printout
  cases o.json with
  | true => exact List.append_nil _
  | false =>
      intro report member
      obtain ⟨turn, _, told⟩ := exists_turn reported member
      cases told with
      | committed =>
          refine ⟨fun p named => infix_textOf ?_, fun _ none => absurd none List.not_mem_nil⟩
          refine List.mem_flatMap.mpr ⟨_, member, ?_⟩
          obtain rfl := Option.some.inj named
          exact List.mem_singleton_self _
      | failed =>
          refine ⟨fun p none => absurd none (by simp [BuildReport.ofFailure]), fun fault here => ?_⟩
          refine List.IsInfix.trans (infix_textOf ?_) (List.suffix_append _ _).isInfix
          refine List.mem_flatMap.mpr ⟨_, member, ?_⟩
          obtain rfl := List.mem_singleton.mp here
          exact List.mem_singleton_self _

/-! ## What goes on to the caller -/

/-- The faults of an order that are met before any build: the table of versions cannot be loaded, or
several builds are to be shared by a negative number of workers. -/
inductive Escapes (o : BuildOptions) (w : Workspace) : Fault → Prop
  | table {fault : Fault} (failed : ((loadMatrix o.matrix).outcome w).1 = .error fault) :
      Escapes o w fault
  | workers {matrix : Matrix} {n : Int}
      (loaded : ((loadMatrix o.matrix).outcome w).1 = .ok matrix) (several : 1 < o.targets.length)
      (given : o.workers = some n) (negative : n < 0) :
      Escapes o w (.badValue "max_workers must be greater than 0")

theorem run_of_unloaded {v : Workspace} (h : (loadMatrix o.matrix).outcome w = (.error fault, v)) :
    (o.run machine environment).outcome w = (.error fault, v) := by
  unfold run
  rw [outcome_bind, h]

/-- Several jobs are not begun with a negative number of workers. -/
theorem run_of_negative {v : Workspace} {n : Int}
    (loaded : (loadMatrix o.matrix).outcome w = (.ok matrix, v)) (several : 1 < o.targets.length)
    (given : o.workers = some n) (negative : n < 0) :
    (o.run machine environment).outcome w =
      (.error (.badValue "max_workers must be greater than 0"), v) := by
  have many : 1 < (o.jobs environment).length := by rwa [jobs, List.length_map]
  unfold run
  rw [outcome_bind, loaded]
  simp only
  generalize o.jobs environment = ordered at many ⊢
  rcases ordered with _ | ⟨first, _ | ⟨second, rest⟩⟩
  · exact absurd many (by simp)
  · exact absurd many (by simp)
  · simp only
    rw [given, outcome_bind, outcome_runAll_of_negative negative]

/-- With a table that is loaded, and workers for several jobs, all jobs are reported. -/
theorem run_prints (machine : Machine) (environment : Members) {v : Workspace}
    (loaded : (loadMatrix o.matrix).outcome w = (.ok matrix, v))
    (enough : ∀ n, o.workers = some n → n < 0 → ¬ 1 < o.targets.length) :
    ∃ reports w', List.Forall₂ (Reported machine matrix)
        (turns machine matrix (o.jobs environment) v) reports ∧
      (o.run machine environment).outcome w = (.ok (o.printout reports), w') := by
  obtain ⟨reports, w', reported, ended⟩ :=
    mapM_run_reports machine matrix (o.jobs environment) v
  have size : (o.jobs environment).length = o.targets.length := by rw [jobs, List.length_map]
  refine ⟨reports, w', reported, ?_⟩
  unfold run
  rw [outcome_bind, loaded]
  simp only
  generalize o.jobs environment = ordered at ended size ⊢
  rcases ordered with _ | ⟨first, _ | ⟨second, rest⟩⟩
  · cases ended
    rfl
  · obtain ⟨report, _, ran⟩ := run_reports machine matrix first v
    rw [List.mapM_cons, outcome_bind, ran] at ended
    simp only
    rw [outcome_bind, ran]
    cases ended
    rfl
  · simp only
    have several : ∀ n, o.workers = some n → ¬ n < 0 := fun n given negative =>
      enough n given negative (size ▸ by simp)
    rw [outcome_bind, outcome_runAll several, ended]
    rfl

/-- Whatever does not go on to the caller before the builds is reported. -/
theorem ends (machine : Machine) (environment : Members) (o : BuildOptions) (w : Workspace) :
    (∃ fault w', o.Escapes w fault ∧ (o.run machine environment).outcome w = (.error fault, w')) ∨
      ∃ matrix v reports w', (loadMatrix o.matrix).outcome w = (.ok matrix, v) ∧
        List.Forall₂ (Reported machine matrix)
          (turns machine matrix (o.jobs environment) v) reports ∧
        (o.run machine environment).outcome w = (.ok (o.printout reports), w') := by
  rcases loaded : (loadMatrix o.matrix).outcome w with ⟨table, v⟩
  cases table with
  | error fault => exact .inl ⟨fault, v, .table (by rw [loaded]), run_of_unloaded loaded⟩
  | ok matrix =>
      by_cases enough : ∀ n, o.workers = some n → n < 0 → ¬ 1 < o.targets.length
      · obtain ⟨reports, w', reported, ran⟩ :=
          run_prints machine environment loaded enough
        exact .inr ⟨matrix, v, reports, w', rfl, reported, ran⟩
      · obtain ⟨n, given, negative, several⟩ :
            ∃ n, o.workers = some n ∧ n < 0 ∧ 1 < o.targets.length := by simpa using enough
        exact .inl ⟨_, v, .workers (by rw [loaded]) several given negative,
          run_of_negative loaded several given negative⟩

/-- The faults that go on to the caller are those that are met before any build. -/
theorem run_error_iff (machine : Machine) (environment : Members) (o : BuildOptions) :
    ((o.run machine environment).outcome w).1 = .error fault ↔ o.Escapes w fault := by
  constructor
  · intro failed
    rcases ends machine environment o w with ⟨other, _, escapes, ran⟩ | ⟨_, _, _, _, _, _, ran⟩
    · rw [ran] at failed
      obtain rfl := Except.error.inj failed
      exact escapes
    · rw [ran] at failed
      exact absurd failed (by simp)
  · intro escapes
    cases escapes with
    | table failed => rw [run_of_unloaded (Prod.ext failed rfl)]
    | workers loaded several given negative =>
        rw [run_of_negative (Prod.ext loaded rfl) several given negative]

end BuildOptions

/-- What a program that is ordered to build leaves behind: the fault or the printout of the
order. -/
theorem outcome_run (machine : Machine) (environment : Members) (chance : Bytes) (w : Workspace)
    (read : readOrder arguments = .ok order) (ordered : order.command = .build o) :
    ∃ shown, ((run machine environment chance arguments).outcome w).1 =
      ((o.run machine environment).outcome w).1.map fun p => p.result shown := by
  unfold run
  rw [read]
  simp only
  rw [outcome_bind, outcome_get]
  simp only
  rw [ordered]
  show ∃ shown, ((o.run machine environment >>= fun printout => _).outcome w).1 = _
  rw [outcome_bind]
  rcases (o.run machine environment).outcome w with ⟨result, w'⟩
  cases result with
  | error e => exact ⟨[], rfl⟩
  | ok printout => exact ⟨_, rfl⟩

end CommandLine

end ModulePackaging

/-! ## The project with a key, built for two versions -/

namespace ModulePackaging.Sample

open Files Files.Tree Action CommandLine

/-- Two versions of the host, of which one is no version. -/
def twoTargets : List Text :=
  ["build", ".", "--host-api", "7.0.0", "--key=key", "--host-api", "7", "--jobs", "0"]

/-- Whether a command line orders builds without a table, shared by no more workers than asked. -/
def ordersBuilds (arguments : List Text) (workers : Option Int) : Bool :=
  passes (readOrder arguments) fun order =>
    match order.command with
    | .build o => o.matrix.isNone && o.workers == workers && !o.json
    | _ => false

/-- The project built with a table of versions that is not there. -/
def untabled : List Text :=
  ["build", ".", "--host-api", "7.0.0", "--key", "key", "--matrix", "missing.json"]

end ModulePackaging.Sample
