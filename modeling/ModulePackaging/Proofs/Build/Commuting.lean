import ModulePackaging.Proofs.Build.Several
import ModulePackaging.Proofs.HostApi.Tables

/-!
# Builds that commute

Two jobs without commands whose files do not meet can run in either order: each gives the same
report, and the files are the same in the end. Such a job touches nothing but its archive, its
ledger and the file beside the ledger, if the directories of these are there, so the other job finds
all that it looks at as it was, and what both leave is merged to the same files.
-/

namespace ModulePackaging

open Files Files.Tree Action

variable {w w' v : Workspace} {machine : Machine} {given : Option Matrix} {matrix : Matrix}

/-! ## Builds without commands -/

/-- A machine that starts no command. -/
def Machine.idle : Machine := fun _ _ => .error .nullByte

theorem Machine.idle_spares (K : Tree → Tree → Prop) : idle.Spares K := by
  intro invocation tree outcome tree' ran
  exact absurd ran (by simp [idle])

namespace BuildRequest

variable {request : BuildRequest}

/-- A build that runs no command. -/
def IsQuiet (request : BuildRequest) (matrix : Matrix) (w : Workspace) : Prop :=
  ∀ invocation, ¬ request.Invokes matrix w invocation

/-- Without a command it does not matter on which machine a module is compiled. -/
theorem IsQuiet.compile_eq {project : Project} {d : Descriptor} {target : Target}
    (quiet : request.IsQuiet matrix w)
    (resolved : (request.resolve.outcome w).1 = .ok (project, d))
    (found : matrix.resolveJson request.target = .ok target) (other : Machine) :
    request.compile machine project d target = request.compile other project d target := by
  rw [BuildRequest.compile_eq, BuildRequest.compile_eq]
  cases chosen : request.chosen project with
  | error e => rfl
  | ok toolchain =>
      cases toolchain with
      | prebuilt artifact => rfl
      | command words artifact => exact absurd (.command resolved found chosen) (quiet _)

/-- Without a command a build does the same on every machine. -/
theorem IsQuiet.build_eq (quiet : request.IsQuiet matrix w) (other : Machine) :
    (build machine matrix request).outcome w = (build other matrix request).outcome w := by
  unfold build
  simp only
  refine outcome_bind_congr rfl fun ⟨project, d⟩ w₁ ended => ?_
  have resolved := resolved_of_run ended
  refine outcome_bind_congr rfl fun target w₂ ended => ?_
  have found := found_of_run ended
  rw [quiet.compile_eq resolved found other]

/-- The places that a build may write to: those of its archive and of its ledger, and the one beside
the ledger. -/
inductive WritesAt (request : BuildRequest) (matrix : Matrix) (w : Workspace) : Location → Prop
  | output {p : Path} (here : request.outputPath? matrix w = some p) :
      WritesAt request matrix w (w.files.placeOf p)
  | ledger {p : Path} (here : request.ledger = some p) :
      WritesAt request matrix w (w.files.placeOf p)
  | beside {p : Path} (here : request.ledger = some p) :
      WritesAt request matrix w (w.files.placeOf (p.temporary w.mark))

/-- The places that a build may write to, as a list. -/
def placesWritten (request : BuildRequest) (matrix : Matrix) (w : Workspace) : List Location :=
  ((request.outputPath? matrix w).toList ++
    request.ledger.toList.flatMap fun p => [p, p.temporary w.mark]).map w.files.placeOf

theorem mem_placesWritten {l : Location} (writes : request.WritesAt matrix w l) :
    l ∈ request.placesWritten matrix w := by
  unfold placesWritten
  cases writes with
  | output here => simp [here]
  | ledger here => simp [here]
  | beside here => simp [here]

/-- The directories of the archive and of the ledger are there. -/
def HasDirectories (request : BuildRequest) (matrix : Matrix) (w : Workspace) : Prop :=
  ∀ p, request.Writes matrix w p →
    ∃ l, w.files.resolve p.parent = .ok l ∧ w.files.node? l = some .directory

end BuildRequest

/-- Without a command a build touches only the places that it may write to, and makes no directory
where those of its archive and its ledger are there. -/
theorem build_leaves {request : BuildRequest} {result : Except Fault BuildResult}
    (sound : w.files.IsSound) (plain : w.HasPlainMark) (quiet : request.IsQuiet matrix w)
    (ready : request.HasDirectories matrix w)
    (h : (build machine matrix request).outcome w = (result, w')) :
    Leaves (request.WritesAt matrix w) (fun _ => False) w w' := by
  rw [quiet.build_eq Machine.idle] at h
  rcases build_ends (Machine.idle_spares Eq) h with ⟨_, mark, same⟩ |
    ⟨s, published, v, v', prepared, ⟨mark, same⟩, outcome, files, mark', _⟩
  · refine ⟨mark, ?_⟩
    rw [← same]
    exact Evolves.refl sound
  -- What is published is published from the files that the build began with.
  have places : Archive.HasPlaces v s.path request.ledger := by
    refine ⟨same ▸ sound, ⟨mark ▸ plain.slash, mark ▸ plain.point⟩, prepared.name, ?_, ?_⟩
    · exact same ▸ .inr (ready _ (.inl prepared.output))
    · exact fun p here => same ▸ .inr (ready p (.inr here))
  have leaves : Leaves (request.WritesAt matrix w) (fun _ => False) v v' := by
    refine ((Archive.publish_leaves_of_places places outcome).of_directories
      fun l above => ?_).mono ?_ fun _ => id
    · rw [← same] at above ⊢
      rcases above with above | ⟨p, here, above⟩
      · obtain ⟨m, found, directory⟩ := ready _ (.inl prepared.output)
        exact sound.directory_above found directory above
      · obtain ⟨m, found, directory⟩ := ready p (.inr here)
        exact sound.directory_above found directory above
    · rintro l (⟨rfl, _⟩ | ⟨p, here, rfl | rfl⟩)
      · exact same ▸ .output prepared.output
      · exact same ▸ .ledger here
      · exact mark ▸ same ▸ .beside here
  refine ⟨mark'.trans (leaves.mark.trans mark), ?_⟩
  rw [files, same]
  exact leaves.files

/-! ## The matrix of a job -/

theorem MatrixTable.looksAt_loadMatrix {paths : Path → Prop} {p : Path} (here : paths p) :
    LooksAt paths (loadMatrix p) := by
  have values : LooksAt paths (Action.readJson p) :=
    (LooksAt.readText here).bind fun _ => LooksAt.ofExcept _ _
  have rows : LooksAt paths (load p) := values.bind fun _ => LooksAt.ofExcept _ _
  exact rows.bind fun _ => LooksAt.ofExcept _ _

namespace BuildJob

variable {i j job other : BuildJob}

/-- Finding the matrix of a job looks at no file but the one of the matrix. -/
theorem looksAt_matrixFor {paths : Path → Prop}
    (here : ∀ p, given = none → job.matrix = some p → paths p) :
    LooksAt paths (job.matrixFor given) := by
  unfold matrixFor
  split
  · exact LooksAt.pure _
  · rename_i p file
    exact MatrixTable.looksAt_loadMatrix (here p rfl file)
  · exact LooksAt.pure _

/-- Finding the matrix of a job changes nothing. -/
theorem outcome_matrixFor (job : BuildJob) (given : Option Matrix) (w : Workspace) :
    (job.matrixFor given).outcome w = (((job.matrixFor given).outcome w).1, w) := by
  unfold matrixFor
  split
  · rfl
  · rw [MatrixTable.outcome_loadMatrix]
  · rfl

/-- A job runs with the matrix that it finds. -/
theorem run_of_matrix (found : ((job.matrixFor given).outcome w).1 = .ok matrix)
    (machine : Machine) :
    (job.run machine given).outcome w = (job.run machine (some matrix)).outcome w := by
  unfold run
  rw [outcome_tryCatch, outcome_tryCatch, outcome_bind, outcome_matrixFor, found]
  rfl

/-! ## Jobs that avoid each other -/

/-- The paths that a job uses: those of its build, and the file of its matrix where that is read. -/
inductive Uses (job : BuildJob) (given : Option Matrix) (matrix : Matrix) (w : Workspace) :
    Path → Prop
  | request {p : Path} (uses : job.request.Uses matrix w p) : Uses job given matrix w p
  | matrix {p : Path} (none : given = none) (here : job.matrix = some p) : Uses job given matrix w p

/-- No place that one job may write to is on the way of a path that another one uses. -/
def Avoids (given : Option Matrix) (matrix : Matrix) (w : Workspace) (job other : BuildJob) :
    Prop :=
  ∀ l, job.request.WritesAt matrix w l → ∀ p, other.Uses given matrix w p → ¬ w.files.IsOnWay p l

/-- A job that finds its matrix, has its module compiled, and has the directories that it writes
to. -/
structure IsPrepared (job : BuildJob) (given : Option Matrix) (matrix : Matrix) (w : Workspace) :
    Prop where
  found : ((job.matrixFor given).outcome w).1 = .ok matrix
  quiet : job.request.IsQuiet matrix w
  ready : job.request.HasDirectories matrix w

/-- Two prepared jobs with the same matrix that avoid each other. -/
structure Independent (given : Option Matrix) (matrix : Matrix) (w : Workspace) (i j : BuildJob) :
    Prop where
  first : i.IsPrepared given matrix w
  second : j.IsPrepared given matrix w
  apart : Avoids given matrix w i j
  apart' : Avoids given matrix w j i

theorem Independent.symm (both : Independent given matrix w i j) :
    Independent given matrix w j i :=
  ⟨both.second, both.first, both.apart', both.apart⟩

/-- The files after a job are those that its build leaves. -/
theorem filesAlone_eq (machine : Machine) (matrix : Matrix) (w : Workspace) (job : BuildJob) :
    filesAlone machine matrix w job =
      ((build machine matrix job.request).outcome w).2.files := by
  rw [filesAlone, run_eq, outcome_tryCatch, outcome_bind]
  rcases ended : (build machine matrix job.request).outcome w with ⟨result, w'⟩
  cases result with
  | ok built => rfl
  | error e =>
      obtain ⟨stage, fault, rfl⟩ := build_fails ended
      rfl

/-- What a prepared job leaves is found alike by all that a job uses which it avoids. -/
theorem IsPrepared.alike (prepared : job.IsPrepared given matrix w) (sound : w.files.IsSound)
    (plain : w.HasPlainMark) (avoids : Avoids given matrix w job other) (machine : Machine)
    {p : Path} (uses : other.Uses given matrix w p) :
    Alike w.files (filesAlone machine matrix w job) p := by
  rw [filesAlone_eq]
  rcases ended : (build machine matrix job.request).outcome w with ⟨result, w'⟩
  have leaves := build_leaves sound plain prepared.quiet prepared.ready ended
  exact .of_same fun l passed =>
    leaves.files.kept l (fun writes => avoids l writes p uses passed) id

/-- Without a command, any scope holds the commands of a job. -/
theorem IsPrepared.confined (prepared : job.IsPrepared given matrix w) (machine : Machine)
    (scope : Location → Prop) (invocation : Invocation)
    (invokes : job.request.Invokes matrix w invocation) : machine.IsConfined scope invocation :=
  absurd invokes (prepared.quiet invocation)

/-- A job that is run after an independent one finds the same matrix. -/
theorem Independent.found_after (both : Independent given matrix w i j) (sound : w.files.IsSound)
    (plain : w.HasPlainMark) (files : v.files = filesAlone machine matrix w i) :
    ((j.matrixFor given).outcome v).1 = .ok matrix := by
  have pair : Comparable w.files v.files := by
    obtain ⟨home, soundAlone⟩ :=
      comparable_filesAlone sound plain (both.first.confined machine fun _ => False)
    exact files ▸ ⟨home, sound, soundAlone⟩
  have looks : LooksAt (j.Uses given matrix w) (j.matrixFor given) :=
    looksAt_matrixFor fun p none here => .matrix none here
  have alike : ∀ p, j.Uses given matrix w p → Alike w.files v.files p := fun p uses =>
    files ▸ both.first.alike sound plain both.apart machine uses
  rw [looks.alike w v pair alike]
  exact both.second.found

/-- Independent jobs run, in the one order, with the matrix that both find in the beginning. -/
theorem Independent.mapM_eq (both : Independent given matrix w i j) (sound : w.files.IsSound)
    (plain : w.HasPlainMark) (machine : Machine) :
    ([i, j].mapM (run machine given)).outcome w =
      ([i, j].mapM (run machine (some matrix))).outcome w := by
  simp only [List.mapM_cons, List.mapM_nil]
  -- The first job starts where both find their matrix, the second one where the first has ended.
  refine outcome_bind_congr (run_of_matrix both.first.found machine) fun report v ended => ?_
  have files : v.files = filesAlone machine matrix w i := by rw [filesAlone, ended]
  have found := both.found_after sound plain files
  have second : (j.run machine given).outcome v = (j.run machine (some matrix)).outcome v :=
    run_of_matrix found machine
  exact outcome_bind_congr (outcome_bind_congr second fun _ _ _ => rfl) fun _ _ _ => rfl

/-- Independent jobs give, in the one order, the reports that each of them gives alone, and leave
what is merged from the files that each leaves alone. -/
theorem Independent.run_both (both : Independent given matrix w i j) (sound : w.files.IsSound)
    (plain : w.HasPlainMark) (machine : Machine) :
    ∃ reportI reportJ v,
      ([i, j].mapM (run machine given)).outcome w = (.ok [reportI, reportJ], v) ∧
      ((run machine (some matrix) i).outcome w).1 = .ok reportI ∧
      ((run machine (some matrix) j).outcome w).1 = .ok reportJ ∧
      Merges w.files [filesAlone machine matrix w j, filesAlone machine matrix w i] v.files := by
  have spares : Spares machine matrix w (fun _ _ => False) i j := spares_of_alone fun p uses =>
    both.first.alike sound plain both.apart machine (.request uses)
  have confined : ∀ job ∈ [i, j], ∀ invocation, job.request.Invokes matrix w invocation →
      machine.IsConfined (fun _ => False) invocation := by
    intro job member
    rcases List.mem_pair.mp member with rfl | rfl
    · exact both.first.confined machine _
    · exact both.second.confined machine _
  obtain ⟨reports, v, ended, told, merged⟩ := mapM_run sound plain confined
    (List.pairwise_pair.mpr spares) (fun _ member => absurd member List.not_mem_nil) rfl
    (Merges.nil sound)
  obtain ⟨reportI, _, alone, rest, rfl⟩ := List.forall₂_cons_left_iff.mp told
  obtain ⟨reportJ, _, alone', none, rfl⟩ := List.forall₂_cons_left_iff.mp rest
  obtain rfl := List.forall₂_nil_left_iff.mp none
  have ran := (both.mapM_eq sound plain machine).trans ended
  exact ⟨reportI, reportJ, v, ran, alone, alone', merged⟩

/-- Independent jobs commute: in either order each of them gives the same report, and all files and
the contents of all ledgers are the same in the end. Nothing is asked of the keys, since a signature
here is settled by its key and its message. -/
theorem runs_commute (sound : w.files.IsSound) (plain : w.HasPlainMark)
    (both : Independent given matrix w i j) (machine : Machine) :
    ∃ reportI reportJ v v',
      ([i, j].mapM (run machine given)).outcome w = (.ok [reportI, reportJ], v) ∧
      ([j, i].mapM (run machine given)).outcome w = (.ok [reportJ, reportI], v') ∧
      (∀ l, v'.files.node? l = v.files.node? l) ∧
      ∀ p, Ledger.loaded p v'.files = Ledger.loaded p v.files := by
  obtain ⟨reportI, reportJ, v, ended, alone, alone', merged⟩ := both.run_both sound plain machine
  obtain ⟨_, _, v', ended', again', again, merged'⟩ := both.symm.run_both sound plain machine
  obtain rfl := Except.ok.inj (alone.symm.trans again)
  obtain rfl := Except.ok.inj (alone'.symm.trans again')
  -- Both ends are merged from the same two trees, which leaves nothing open.
  have same := merged.node?_eq merged' fun t => by simp [or_comm]
  refine ⟨_, _, v, v', ended, ended', same, fun p => ?_⟩
  have pair : Comparable v.files v'.files :=
    ⟨merged'.home.trans merged.home.symm, merged.sound, merged'.sound⟩
  have alike : Alike v.files v'.files p := .of_same fun l _ => same l
  unfold Ledger.loaded
  rw [alike.lookup_eq pair]

end BuildJob

end ModulePackaging

/-! ## Two jobs in one project -/

namespace ModulePackaging.Sample

open Files Files.Tree Action

/-- The project with the file of a key, and with the directory that archives go to. -/
def stocked : Workspace :=
  { shared with files :=
    { shared.files with nodes := (["p", "dist"], .directory) :: shared.files.nodes } }

/-- The job that can be signed, with a ledger. -/
def recorded : BuildJob := { signed with ledger := some (Path.ofText "a.json") }

/-- The job that cannot be signed, with another ledger. -/
def unrecorded : BuildJob := { unsigned with ledger := some (Path.ofText "b.json") }

/-- Whether a job has its module compiled and its directories in place, and avoids another one. -/
def keepsApart (job other : BuildJob) : Bool :=
  passes (job.request.resolve.outcome stocked).1 (fun (project, _) =>
      passes (job.request.chosen project) fun
        | .prebuilt _ => true
        | .command _ _ => false) &&
    ((job.request.outputPath? Releases.matrix stocked).toList ++ job.ledger.toList).all (fun p =>
      passes (stocked.files.resolve p.parent) fun l =>
        decide (stocked.files.node? l = some .directory)) &&
    (job.request.placesWritten Releases.matrix stocked).all fun l =>
      (other.request.pathsUsed Releases.matrix stocked).all fun p =>
        !decide (stocked.files.IsOnWay p l)

theorem isPrepared_of_keepsApart {job other : BuildJob} (builtIn : job.matrix = none)
    (h : keepsApart job other = true) : job.IsPrepared none Releases.matrix stocked := by
  unfold keepsApart at h
  rw [Bool.and_eq_true, Bool.and_eq_true] at h
  obtain ⟨⟨compiled, ready⟩, _⟩ := h
  refine ⟨?_, ?_, ?_⟩
  · unfold BuildJob.matrixFor
    rw [builtIn]
    rfl
  · rintro _ ⟨resolved, _, isCommand⟩
    rw [resolved, passes] at compiled
    simp only [isCommand] at compiled
    exact absurd compiled (by simp [passes])
  · intro p writes
    have member : p ∈ (job.request.outputPath? Releases.matrix stocked).toList ++
        job.ledger.toList := by
      rcases writes with here | here
      · simp [here]
      · exact List.mem_append_right _ (Option.mem_toList.mpr here)
    obtain ⟨l, found, directory⟩ := exists_of_passes (List.all_eq_true.mp ready p member)
    exact ⟨l, found, of_decide_eq_true directory⟩

theorem avoids_of_keepsApart {job other : BuildJob} (builtIn : other.matrix = none)
    (h : keepsApart job other = true) :
    BuildJob.Avoids none Releases.matrix stocked job other := by
  unfold keepsApart at h
  rw [Bool.and_eq_true] at h
  rintro l writes p (uses | ⟨_, file⟩)
  · have all := List.all_eq_true.mp h.2 l (BuildRequest.mem_placesWritten writes)
    have off := List.all_eq_true.mp all p (BuildRequest.mem_pathsUsed uses)
    simpa using off
  · rw [builtIn] at file
    exact absurd file (by simp)

set_option maxRecDepth 100000 in
theorem keepsApart_recorded : keepsApart recorded unrecorded = true := by decide +kernel

set_option maxRecDepth 100000 in
theorem keepsApart_unrecorded : keepsApart unrecorded recorded = true := by decide +kernel

set_option maxRecDepth 100000 in
/-- A job that is signed and recorded and one that cannot be signed run in either order. -/
theorem runs_commute_of_two :
    BuildJob.Independent none Releases.matrix stocked recorded unrecorded ∧ ∃ reportI reportJ v v',
      ([recorded, unrecorded].mapM (BuildJob.run machine none)).outcome stocked =
        (.ok [reportI, reportJ], v) ∧
      ([unrecorded, recorded].mapM (BuildJob.run machine none)).outcome stocked =
        (.ok [reportJ, reportI], v') ∧
      (∀ l, v'.files.node? l = v.files.node? l) ∧
      ∀ p, Ledger.loaded p v'.files = Ledger.loaded p v.files := by
  have sound : stocked.files.IsSound := isSound_of_nodes (by decide +kernel) (by decide +kernel)
  have plain : stocked.HasPlainMark := ⟨by decide, by decide⟩
  have both : BuildJob.Independent none Releases.matrix stocked recorded unrecorded :=
    ⟨isPrepared_of_keepsApart rfl keepsApart_recorded,
      isPrepared_of_keepsApart rfl keepsApart_unrecorded,
      avoids_of_keepsApart rfl keepsApart_recorded,
      avoids_of_keepsApart rfl keepsApart_unrecorded⟩
  exact ⟨both, BuildJob.runs_commute sound plain both machine⟩

end ModulePackaging.Sample
