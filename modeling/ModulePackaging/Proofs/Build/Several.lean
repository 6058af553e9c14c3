import Mathlib.Data.List.Forall2
import Mathlib.Data.List.Pairwise
import ModulePackaging.Build.Report
import ModulePackaging.Proofs.Build.Alongside

/-!
# Several builds are each build alone

Jobs that leave each other's inputs and outputs alone give the same reports one after the other as
each of them gives alone, and the same archives. The files after them are merged from the files that
each job alone leaves.
-/

namespace ModulePackaging

open Files Files.Tree Action

variable {u v w : Workspace} {reach : Reach} {scope : Location → Prop} {p : Path}
  {machine : Machine} {matrix : Matrix} {job : BuildJob}

/-! ## Merged files -/

/-- What an operation looks at is the same in a tree as in the workspace that it starts in; only
directories may be new on the way of a path. -/
structure Reach.Finds (reach : Reach) (tree : Tree) : Prop where
  paths : ∀ p, reach.paths p → Alike reach.start.files tree p
  seen : ∀ l, reach.seen l → tree.node? l = reach.start.files.node? l

/-- The files after several operations that each began with the same files: at a location that some
of them changed there is what each of these left there alone, elsewhere what was there. -/
structure Files.Tree.Merges (start : Tree) (ends : List Tree) (tree : Tree) : Prop where
  home : tree.home = start.home
  sound : tree.IsSound
  changed : ∀ t ∈ ends, ∀ l, t.node? l ≠ start.node? l → tree.node? l = t.node? l
  kept : ∀ l, (∀ t ∈ ends, t.node? l = start.node? l) → tree.node? l = start.node? l

/-- A workspace in which all is found as in the one that an operation starts in. -/
theorem Reach.Finds.company (found : reach.Finds v.files) (mark : v.mark = reach.start.mark)
    (home : v.files.home = reach.start.files.home) (sound : reach.start.files.IsSound)
    (sound' : v.files.IsSound) : Company reach reach.start v :=
  ⟨rfl, mark, rfl, ⟨home, sound, sound'⟩, found.paths, found.seen⟩

namespace Files.Tree.Merges

variable {start tree tree' last : Tree} {ends : List Tree}

theorem nil (sound : start.IsSound) : Merges start [] start :=
  ⟨rfl, sound, fun _ member => absurd member List.not_mem_nil, fun _ _ => rfl⟩

/-- At every location merged files have what was there, or what one of the trees changed it to. -/
theorem node_cases (merges : Merges start ends tree) (l : Location) :
    tree.node? l = start.node? l ∨
      ∃ t ∈ ends, t.node? l ≠ start.node? l ∧ tree.node? l = t.node? l := by
  by_cases same : ∀ t ∈ ends, t.node? l = start.node? l
  · exact .inl (merges.kept l same)
  · simp only [not_forall] at same
    obtain ⟨t, member, other⟩ := same
    exact .inr ⟨t, member, other, merges.changed t member l other⟩

/-- There is one way to merge files: in which order the operations were does not matter. -/
theorem node?_eq {ends' : List Tree} (merges : Merges start ends tree)
    (also : Merges start ends' tree') (same : ∀ t, t ∈ ends' ↔ t ∈ ends) (l : Location) :
    tree'.node? l = tree.node? l := by
  by_cases kept : ∀ t ∈ ends, t.node? l = start.node? l
  · rw [merges.kept l kept, also.kept l fun t member => kept t ((same t).mp member)]
  · simp only [not_forall] at kept
    obtain ⟨t, member, other⟩ := kept
    rw [merges.changed t member l other, also.changed t ((same t).mpr member) l other]

/-- Trees that are found alike by an operation are merged into one that it finds alike. -/
theorem finds (merges : Merges reach.start.files ends tree) (each : ∀ t ∈ ends, reach.Finds t) :
    reach.Finds tree := by
  have seen : ∀ l, reach.seen l → tree.node? l = reach.start.files.node? l := fun l here =>
    merges.kept l fun t member => (each t member).seen l here
  refine ⟨fun p here => ⟨fun done rest split => ?_, ?_⟩, seen⟩
  · rcases merges.node_cases (walk (reach.start.files.startOf p) done) with
      same | ⟨t, member, other, same⟩
    · exact .inl same
    · rcases ((each t member).paths p here).along done rest split with equal | ⟨new, down⟩
      · exact absurd equal other
      · exact .inr ⟨⟨new.1, same.trans new.2⟩, down⟩
  · exact merges.kept _ fun t member => ((each t member).paths p here).place

/-- An operation that ends alike alone and in merged files leaves merged files. -/
theorem step (merges : Merges reach.start.files ends tree) (each : ∀ t ∈ ends, reach.Finds t)
    (together : Together reach.seen reach.start.files tree last tree') :
    Merges reach.start.files (last :: ends) tree' where
  home := together.second.trans merges.home
  sound := together.sound'
  changed t member l other := by
    rcases List.mem_cons.mp member with rfl | member
    · rcases together.node l with ⟨same, _⟩ | ⟨_, same⟩ | ⟨_, _, made, made'⟩
      · exact absurd same other
      · exact same
      · rw [made, made']
    · have before := merges.changed t member l other
      rcases together.node l with ⟨_, same⟩ | ⟨here, _⟩ | ⟨missing, maybe, _, made'⟩
      · rw [same, before]
      · exact absurd ((each t member).seen l here) other
      · rcases maybe with nothing | directory
        · rw [← before, nothing, missing] at other
          exact absurd rfl other
        · rw [made', ← before, directory]
  kept l same := by
    have mine : last.node? l = reach.start.files.node? l := same last List.mem_cons_self
    have before := merges.kept l fun t member => same t (List.mem_cons_of_mem _ member)
    rcases together.node l with ⟨_, kept⟩ | ⟨_, equal⟩ | ⟨missing, _, made, _⟩
    · rw [kept, before]
    · rw [equal, mine]
    · rw [mine, missing] at made
      exact absurd made (by simp)

/-- A path that finds the other merged trees alike finds the same in the merged files as in its
own. -/
theorem alike (merges : Merges start ends tree) (member : last ∈ ends)
    (home : last.home = start.home) (others : ∀ t ∈ ends, t = last ∨ Alike start t p) :
    Alike last tree p := by
  have origin : last.startOf p = start.startOf p := by rw [startOf, startOf, home]
  have place : last.placeOf p = start.placeOf p := by rw [placeOf, placeOf, origin]
  constructor
  · intro done rest split
    rw [origin]
    by_cases mine : last.node? (walk (start.startOf p) done) =
        start.node? (walk (start.startOf p) done)
    · rcases merges.node_cases (walk (start.startOf p) done) with same | ⟨t, inside, other, same⟩
      · exact .inl (same.trans mine.symm)
      · rcases others t inside with rfl | alike
        · exact absurd mine other
        · rcases alike.along done rest split with equal | ⟨new, down⟩
          · exact absurd equal other
          · exact .inr ⟨⟨mine.trans new.1, same.trans new.2⟩, down⟩
    · exact .inl (merges.changed last member _ mine)
  · rw [place]
    by_cases mine : last.node? (start.placeOf p) = start.node? (start.placeOf p)
    · rw [mine]
      refine merges.kept _ fun t inside => ?_
      rcases others t inside with rfl | alike
      · exact mine
      · exact alike.place
    · exact merges.changed last member _ mine

end Files.Tree.Merges

/-! ## A job among others -/

instance : IsPreorder Tree (fun _ _ => True) where
  refl _ := trivial
  trans _ _ _ _ _ := trivial

/-- A build that fails tells its stage. -/
theorem build_fails {request : BuildRequest} {e : Fault}
    (h : (build machine matrix request).outcome w = (.error e, v)) :
    ∃ stage fault, e = BuildStage.failed stage fault := by
  have anywhere : machine.Spares (fun _ _ => True) := fun _ _ _ _ _ => trivial
  rcases build_ends anywhere h with
    ⟨⟨stage, fault, told⟩, _⟩ | ⟨s, published, _, _, _, _, _, _, _, told⟩
  · exact ⟨stage, fault, Except.error.inj told⟩
  · cases published with
    | ok _ => exact absurd told (by simp [Except.map, mapError_ok])
    | error fault => exact ⟨_, fault, Except.error.inj told⟩

namespace BuildJob

/-- What a job looks at when it is built with a matrix. -/
def footprint (job : BuildJob) (matrix : Matrix) (w : Workspace) (scope : Location → Prop) :
    Reach :=
  job.request.footprint matrix w scope

/-- The files that a job leaves when it runs alone. -/
def filesAlone (machine : Machine) (matrix : Matrix) (w : Workspace) (job : BuildJob) : Tree :=
  ((job.run machine (some matrix)).outcome w).2.files

/-- A job with a given matrix is built with it. -/
theorem run_eq (machine : Machine) (matrix : Matrix) (job : BuildJob) :
    job.run machine (some matrix) = tryCatch
      (do
        let result ← build machine matrix job.request
        return .ofResult job.target result)
      fun fault =>
        match BuildReport.ofFault? job.target fault with
        | some report => pure report
        | none => throw fault := rfl

/-- Running a job gives a report, however its build ends. -/
theorem exists_report (machine : Machine) (matrix : Matrix) (job : BuildJob) (w : Workspace) :
    ∃ report, ((job.run machine (some matrix)).outcome w).1 = .ok report := by
  rw [run_eq, outcome_tryCatch, outcome_bind]
  rcases ended : (build machine matrix job.request).outcome w with ⟨result, w'⟩
  cases result with
  | ok built => exact ⟨_, rfl⟩
  | error e =>
      obtain ⟨stage, fault, rfl⟩ := build_fails ended
      exact ⟨_, rfl⟩

/-- A job ends alike in the workspace that it starts in and in another one that it finds alike. -/
theorem run_abreast (company : Company (job.footprint matrix w scope) w v) (plain : w.HasPlainMark)
    (confined : ∀ invocation, job.request.Invokes matrix w invocation →
      machine.IsConfined scope invocation) :
    Abreast (job.footprint matrix w scope).seen (job.run machine (some matrix)) w v := by
  rw [run_eq]
  have builds : Abreast (job.footprint matrix w scope).seen (build machine matrix job.request)
      w v :=
    build_abreast company plain confined
  have reports : Abreast (job.footprint matrix w scope).seen (do
      let result ← build machine matrix job.request
      return BuildReport.ofResult job.target result) w v :=
    builds.bind company fun result u₁ v₁ met _ => .of_looks met (LooksAt.pure _)
  refine reports.tryCatch company fun fault u₁ v₁ met => ?_
  cases BuildReport.ofFault? job.target fault with
  | some report => exact .of_looks met (LooksAt.pure _)
  | none => exact .of_looks met (LooksAt.throw _)

/-- What one job leaves when it runs alone, another one does not look at: the other finds the files
as they were, but for new directories. -/
def Spares (machine : Machine) (matrix : Matrix) (w : Workspace)
    (scope : BuildJob → Location → Prop) (job other : BuildJob) : Prop :=
  (other.footprint matrix w (scope other)).Finds (job.filesAlone machine matrix w)

/-- Without commands, a job spares another one if the paths that the other uses find alike what the
job leaves. -/
theorem spares_of_alone {job other : BuildJob}
    (alike : ∀ p, other.request.Uses matrix w p →
      Alike w.files (filesAlone machine matrix w job) p) :
    Spares machine matrix w (fun _ _ => False) job other := by
  refine ⟨alike, fun l here => ?_⟩
  obtain ⟨p, uses, rfl⟩ := here.resolve_left id
  exact (alike p uses).place

/-- Two jobs that spare each other. -/
def Apart (machine : Machine) (matrix : Matrix) (w : Workspace)
    (scope : BuildJob → Location → Prop) (job other : BuildJob) : Prop :=
  Spares machine matrix w scope job other ∧ Spares machine matrix w scope other job

instance (scope : BuildJob → Location → Prop) : Std.Symm (Apart machine matrix w scope) :=
  ⟨fun _ _ => And.symm⟩

/-- A job in files that are merged from what others leave, each of which spares it, gives the report
that it gives alone, and what it leaves is merged in. -/
theorem run_merged {scope : Location → Prop} {before : List BuildJob} (sound : w.files.IsSound)
    (plain : w.HasPlainMark)
    (confined : ∀ invocation, job.request.Invokes matrix w invocation →
      machine.IsConfined scope invocation)
    (each : ∀ i ∈ before, (job.footprint matrix w scope).Finds (i.filesAlone machine matrix w))
    (mark : v.mark = w.mark)
    (merges : Merges w.files (before.map (filesAlone machine matrix w)) v.files) :
    ∃ report v', (run machine (some matrix) job).outcome v = (.ok report, v') ∧
      ((run machine (some matrix) job).outcome w).1 = .ok report ∧ v'.mark = w.mark ∧
      Merges w.files ((job :: before).map (filesAlone machine matrix w)) v'.files := by
  have finds := List.forall_mem_map.mpr each
  have found := merges.finds finds
  have company : Company (job.footprint matrix w scope) w v :=
    found.company mark merges.home sound merges.sound
  have abreast := run_abreast company plain confined
  obtain ⟨report, alone⟩ := exists_report machine matrix job w
  rcases ran : (run machine (some matrix) job).outcome v with ⟨result, v'⟩
  have result_eq := abreast.result
  have marked := abreast.mark'
  have together := abreast.files
  rw [ran] at result_eq marked together
  obtain rfl : result = .ok report := result_eq.trans alone
  exact ⟨report, v', rfl, alone, marked.trans mark, merges.step finds together⟩

/-- Jobs that spare each other give the reports that each of them gives alone, and leave the merged
files. -/
theorem mapM_run {scope : BuildJob → Location → Prop} (sound : w.files.IsSound)
    (plain : w.HasPlainMark) {jobs before : List BuildJob}
    (confined : ∀ job ∈ jobs, ∀ invocation, job.request.Invokes matrix w invocation →
      machine.IsConfined (scope job) invocation)
    (apart : jobs.Pairwise (Spares machine matrix w scope))
    (earlier : ∀ i ∈ before, ∀ j ∈ jobs, Spares machine matrix w scope i j)
    (mark : v.mark = w.mark)
    (merges : Merges w.files (before.map (filesAlone machine matrix w)) v.files) :
    ∃ reports v', (jobs.mapM (run machine (some matrix))).outcome v = (.ok reports, v') ∧
      List.Forall₂ (fun job report => ((run machine (some matrix) job).outcome w).1 = .ok report)
        jobs reports ∧
      Merges w.files ((jobs.reverse ++ before).map (filesAlone machine matrix w)) v'.files := by
  -- By induction on the jobs: the files before each are merged from those that earlier ones leave.
  induction jobs generalizing before v with
  | nil => exact ⟨[], v, rfl, .nil, merges⟩
  | cons job rest ih =>
      obtain ⟨next, later⟩ := List.pairwise_cons.mp apart
      obtain ⟨report, v₁, ran, alone, marked, merges₁⟩ := run_merged sound plain
        (confined job List.mem_cons_self)
        (fun i inside => earlier i inside job List.mem_cons_self) mark merges
      obtain ⟨reports, v', ended, given, merged⟩ := ih
        (fun other member => confined other (List.mem_cons_of_mem _ member)) later
        (fun i inside j member => by
          rcases List.mem_cons.mp inside with rfl | inside
          · exact next j member
          · exact earlier i inside j (List.mem_cons_of_mem _ member))
        marked merges₁
      refine ⟨report :: reports, v', ?_, .cons alone given, ?_⟩
      · rw [List.mapM_cons, outcome_bind, ran]
        simp only
        rw [outcome_bind, ended]
        rfl
      · rwa [List.reverse_cons, List.append_assoc]

/-- A job that runs alone leaves sound files with the same home. -/
theorem comparable_filesAlone (sound : w.files.IsSound) (plain : w.HasPlainMark)
    (confined : ∀ invocation, job.request.Invokes matrix w invocation →
      machine.IsConfined scope invocation) :
    (filesAlone machine matrix w job).home = w.files.home ∧
      (filesAlone machine matrix w job).IsSound := by
  have found : (job.footprint matrix w scope).Finds w.files :=
    (Merges.nil sound).finds fun _ member => absurd member List.not_mem_nil
  have together := (run_abreast (found.company rfl rfl sound sound) plain confined).files
  exact ⟨together.first, together.sound⟩

/-- A job with the file of its matrix left out of account. -/
def withoutMatrix (job : BuildJob) : BuildJob := { job with matrix := none }

theorem run_withoutMatrix (machine : Machine) (job : BuildJob) :
    job.withoutMatrix.run machine none = job.run machine (some Releases.matrix) := rfl

end BuildJob

end ModulePackaging

/-! ## Jobs in one project -/

namespace ModulePackaging.Sample

open Files Files.Tree Action

/-- The project with the file of a key, and a table of one version that the host never had. -/
def shared : Workspace := workspace [] [
  (["p", "key"],
    .file "AAAAAAAAAAAAAAAAAAAAAAAAAAAAAAAAAAAAAAAAAAA=\n".toUTF8.toList defaultMode),
  (["p", "table.json"],
    .file ((MatrixTable.toJson [Releases.plain "1.0.0" ["haps"] []]).storedBytes.toOption.getD [])
      defaultMode)]

/-- The job that builds the project for a version of the host, with a key or without one. -/
def jobFor (version : Text) (key : Option Path) : BuildJob where
  source := Path.ofText "."
  target := .str version
  key := key
  overrides := []
  outDir := none
  overwrite := false
  strict := false
  ledger := none
  matrix := none

/-- A job that can be signed. -/
def signed : BuildJob := jobFor "7.0.0" (some (Path.ofText "key"))

/-- A job for another version that cannot be signed. -/
def unsigned : BuildJob := jobFor "7.28.0" none

/-- Whether a job alone ends with a report of its success or failure, and leaves alike what another
one uses. -/
def endsApart (job other : BuildJob) (succeeds : Bool) : Bool :=
  (job.run machine (some Releases.matrix)).gives shared fun report w' =>
    report.succeeded == succeeds && (other.request.pathsUsed Releases.matrix shared).all fun p =>
      decide (Alike shared.files w'.files p)

theorem spares_of_endsApart {job other : BuildJob} {succeeds : Bool}
    (h : endsApart job other succeeds = true) :
    BuildJob.Spares machine Releases.matrix shared (fun _ _ => False) job other ∧
      ∃ report, ((job.run machine (some Releases.matrix)).outcome shared).1 = .ok report ∧
        report.succeeded = succeeds := by
  obtain ⟨report, w', ended, passed⟩ := exists_of_gives h
  obtain ⟨told, alike⟩ := (Bool.and_eq_true _ _).mp passed
  refine ⟨BuildJob.spares_of_alone fun p uses => ?_, report, ?_, beq_iff_eq.mp told⟩
  · rw [BuildJob.filesAlone, ended]
    exact of_decide_eq_true (List.all_eq_true.mp alike p (BuildRequest.mem_pathsUsed uses))
  · rw [ended]

set_option maxRecDepth 100000 in
/-- The archive of the job that succeeds goes to a new directory, to which that of the other one
would go too. -/
theorem endsApart_signed : endsApart signed unsigned true = true := by decide +kernel

set_option maxRecDepth 100000 in
theorem endsApart_unsigned : endsApart unsigned signed false = true := by decide +kernel

/-- On a machine on which commands change nothing, they are confined to any scope. -/
theorem machine_isConfined (scope : Location → Prop) (invocation : Invocation) :
    machine.IsConfined scope invocation :=
  fun u v pair _ => .inr ⟨_, u, v, rfl, rfl, Together.refl pair⟩

/-- The job for the version in the table. -/
def tabledJob : BuildJob :=
  { jobFor "1.0.0" (some (Path.ofText "key")) with matrix := some (Path.ofText "table.json") }

end ModulePackaging.Sample
