import ModulePackaging.Proofs.HostApi.Growing
import ModulePackaging.Proofs.HostApi.Tables

/-!
# Tables only ever grow

What appending rows makes of a table in a file, over runs of any length in which each append may be
refused. One that is refused, or fails for another reason, leaves the file as it was. One that
succeeds leaves the rows before it and the new one behind them, in a file that is accepted again,
and the larger matrix answers requests up to the version that was the newest as the smaller one did.

Main statement (`append_only`).
-/

namespace ModulePackaging

open Files Files.Tree Action

/-- A row whose version, if it can be read, is of the standard grammar. -/
def MatrixRow.HasStandardVersion (row : MatrixRow) : Prop :=
  ∀ v, Version.parse row.version = .ok v → v.IsStandard

instance (row : MatrixRow) : Decidable row.HasStandardVersion :=
  decidable_of_iff (∀ v ∈ (Version.parse row.version).toOption, v.IsStandard) <| by
    unfold MatrixRow.HasStandardVersion
    cases Version.parse row.version <;> simp [Except.toOption]

namespace MatrixRow

variable {row : MatrixRow} {rows : List MatrixRow} {m larger : Matrix}

theorem standard_of_accumulate {current : List Text} {entries : List ApiEntry}
    (h : accumulate current rows = .ok entries) (standard : ∀ row ∈ rows, row.HasStandardVersion) :
    ∀ e ∈ entries, e.version.IsStandard := by
  have versions := version_of_accumulate h
  clear h
  induction versions with
  | nil => exact List.forall_mem_nil _
  | cons parsed _ ih =>
      obtain ⟨first, others⟩ := List.forall_mem_cons.mp standard
      exact List.forall_mem_cons.mpr ⟨first _ parsed, ih others⟩

theorem named_of_accumulate {current : List Text} {entries : List ApiEntry}
    (h : accumulate current rows = .ok entries) : ∀ row ∈ rows, row.version ≠ [] := by
  have versions := version_of_accumulate h
  clear h
  induction versions with
  | nil => exact List.forall_mem_nil _
  | cons parsed _ ih =>
      refine List.forall_mem_cons.mpr ⟨fun none => ?_, ih⟩
      have nothing : Version.parse [] = .error (.malformed []) := rfl
      rw [none, nothing] at parsed
      exact absurd parsed (by simp)

/-- Rows that make a matrix have versions that are not empty. -/
theorem named_of_matrix (h : matrix rows = .ok m) : ∀ row ∈ rows, row.version ≠ [] := by
  obtain ⟨entries, added, _⟩ := matrix_eq_ok.mp h
  exact named_of_accumulate added

theorem standard_of_alike {others : List MatrixRow} (h : List.Forall₂ Alike rows others)
    (standard : ∀ r ∈ rows, r.HasStandardVersion) : ∀ r ∈ others, r.HasStandardVersion := by
  induction h with
  | nil => exact standard
  | cons alike _ ih =>
      obtain ⟨first, others⟩ := List.forall_mem_cons.mp standard
      refine List.forall_mem_cons.mpr ⟨fun v read => first v ?_, ih others⟩
      rw [alike.version]
      exact read

/-- One more row makes a matrix that has grown. -/
theorem isGrown_of_matrix (standard : ∀ r ∈ rows ++ [row], r.HasStandardVersion)
    (before : matrix rows = .ok m) (after : matrix (rows ++ [row]) = .ok larger) :
    Matrix.IsGrown m larger := by
  obtain ⟨entries, added, registered⟩ := matrix_eq_ok.mp before
  obtain ⟨all, addedAll, registeredAll⟩ := matrix_eq_ok.mp after
  have versions := standard_of_accumulate addedAll standard
  obtain ⟨entries', e, same, rfl⟩ := accumulate_concat addedAll
  obtain rfl := Except.ok.inj (added.symm.trans same)
  exact Matrix.isGrown_of_register versions registered registeredAll

/-- The first row makes a matrix of one entry. -/
theorem isGrown_of_first (after : matrix [row] = .ok larger) : Matrix.IsGrown .empty larger := by
  obtain ⟨all, added, registered⟩ := matrix_eq_ok.mp after
  obtain ⟨before, e, none, rfl⟩ :=
    accumulate_concat (show accumulate [] ([] ++ [row]) = .ok all from added)
  obtain rfl := Except.ok.inj none
  refine ⟨⟨e, (Matrix.checked_of_register registered).1⟩, fun newest v last => ?_⟩
  exact absurd last (by simp [Matrix.newest, Matrix.empty])

end MatrixRow

namespace MatrixTable

variable {rows : List MatrixRow} {row : MatrixRow} {m larger : Matrix} {p : Path}
  {w w' : Workspace}

/-! ## What a path holds -/

/-- A table in a file that is accepted: its rows, and the matrix that they make. -/
structure IsTable (p : Path) (w : Workspace) (rows : List MatrixRow) (m : Matrix) : Prop where
  read : (load p).outcome w = (.ok rows, w)
  accepted : (loadMatrix p).outcome w = (.ok m, w)

/-- What a path has of a table: no rows and no entries where no file is, or an accepted table. -/
inductive Holds (p : Path) (w : Workspace) : List MatrixRow → Matrix → Prop
  | nothing (noFile : ∀ content mode,
      w.files.node? (w.files.placeOf p) ≠ some (.file content mode)) : Holds p w [] .empty
  | table {rows : List MatrixRow} {m : Matrix} (table : IsTable p w rows m) : Holds p w rows m

theorem isTable_iff :
    IsTable p w rows m ↔ loaded p w.files = .ok rows ∧ MatrixRow.matrix rows = .ok m := by
  constructor
  · rintro ⟨read, accepted⟩
    rw [outcome_load, Prod.mk.injEq] at read
    rw [outcome_loadMatrix, read.1, Prod.mk.injEq] at accepted
    exact ⟨read.1, mapError_eq_ok.mp accepted.1⟩
  · rintro ⟨read, accepted⟩
    refine ⟨?_, ?_⟩
    · rw [outcome_load, read]
    · rw [outcome_loadMatrix, read]
      show ((MatrixRow.matrix rows).mapError _, w) = _
      rw [accepted]
      rfl

/-- Rows are loaded from a file that the path leads to. -/
theorem read_of_loaded (h : loaded p w.files = .ok rows) : ∃ content,
    w.files.read p = .ok content ∧
      (Json.ofFile content >>= fun v => (rowsOfJson v).mapError TableError.toFault) = .ok rows := by
  obtain ⟨value, found, decoded⟩ := bind_eq_ok.mp h
  obtain ⟨content, read, parsed⟩ := bind_eq_ok.mp found
  exact ⟨content, mapError_eq_ok.mp read, bind_eq_ok.mpr ⟨value, parsed, decoded⟩⟩

/-- The rows that an append goes on from: those of the file, or none where nothing is. -/
def current (p : Path) (tree : Tree) : Except Fault (List MatrixRow) := do
  if ← (tree.holds p).mapError .files then loaded p tree else return []

/-- What a path holds is what an append goes on from. -/
theorem Holds.current_eq {found : List MatrixRow} (h : Holds p w rows m)
    (goesOn : current p w.files = .ok found) : found = rows := by
  obtain ⟨present, looked, goesOn⟩ := bind_eq_ok.mp goesOn
  cases h with
  | nothing noFile =>
      cases present with
      | false => exact (Except.ok.inj goesOn).symm
      | true =>
          -- Rows could only come from a file in the place of the path.
          obtain ⟨content, read, _⟩ := read_of_loaded goesOn
          obtain ⟨l, mode, reached, file⟩ := read_eq_ok.mp read
          rw [resolve_eq_placeOf reached] at file
          exact absurd file (noFile content mode)
  | table table =>
      have read := (isTable_iff.mp table).1
      cases present with
      | true => exact Except.ok.inj (goesOn.symm.trans read)
      | false =>
          obtain ⟨content, there, _⟩ := read_of_loaded read
          obtain ⟨l, mode, reached, file⟩ := read_eq_ok.mp there
          have held : w.files.holds p = .ok true := by
            unfold Tree.holds
            rw [lookup_of_resolve reached, file]
            rfl
          rw [held] at looked
          exact absurd looked (by simp [mapError_ok])

/-- Taking the rows to go on from, if any. -/
def loadCurrent (p : Path) : Action (List MatrixRow) := do
  if ← Action.ask (·.holds p) then load p else pure []

theorem outcome_loadCurrent (p : Path) (w : Workspace) :
    (loadCurrent p).outcome w = (current p w.files, w) := by
  unfold loadCurrent current
  rw [outcome_bind, outcome_ask]
  cases w.files.holds p with
  | error e => rfl
  | ok present =>
      cases present with
      | true => exact outcome_load p w
      | false => rfl

/-- The rows that are there are taken, the new one is checked against them, and all are saved. -/
theorem append_eq (p : Path) (row : MatrixRow) : append p row = (do
    let rows ← loadCurrent p
    Action.ofExcept TableError.toFault (checkNewer rows row)
    save p (rows ++ [row])) := by
  unfold append loadCurrent
  rw [bind_assoc]
  congr 1
  funext present
  cases present <;> rfl

/-! ## One append -/

/-- An append fails before it begins, or stores the rows with the new one, which make a matrix. -/
theorem append_ends {result : Except Fault Unit} (h : (append p row).outcome w = (result, w')) :
    ((∃ e, result = .error e) ∧ w' = w) ∨ ∃ rows m, current p w.files = .ok rows ∧
      MatrixRow.matrix (rows ++ [row]) = .ok m ∧
      (Action.storeJson p (toJson (rows ++ [row]))).outcome w = (result, w') := by
  -- All checks come before the first step that changes the files.
  rw [append_eq, outcome_bind, outcome_loadCurrent] at h
  cases found : current p w.files with
  | error e =>
      rw [found] at h
      cases h
      exact .inl ⟨⟨_, rfl⟩, rfl⟩
  | ok rows =>
      rw [found] at h
      simp only at h
      rw [outcome_bind, outcome_ofExcept] at h
      cases checked : checkNewer rows row with
      | error e =>
          rw [checked] at h
          cases h
          exact .inl ⟨⟨_, rfl⟩, rfl⟩
      | ok _ =>
          rw [checked] at h
          simp only [mapError_ok, save] at h
          rw [outcome_bind, outcome_ofExcept] at h
          cases made : MatrixRow.matrix (rows ++ [row]) with
          | error e =>
              rw [made] at h
              cases h
              exact .inl ⟨⟨_, rfl⟩, rfl⟩
          | ok m =>
              rw [made] at h
              exact .inr ⟨rows, m, rfl, made, h⟩

/-- An append that fails leaves the file as it was, and what the path holds. -/
theorem append_fails {e : Fault} (sound : w.files.IsSound) (holds : Holds p w rows m)
    (h : (append p row).outcome w = (.error e, w')) :
    w'.files.IsSound ∧ HasSameFile p w w' ∧ Holds p w' rows m := by
  rcases append_ends h with ⟨_, rfl⟩ | ⟨_, _, _, _, stored⟩
  · exact ⟨sound, .refl p w', holds⟩
  have leaves := Leaves.storeJson_anywhere sound stored
  have same := hasSameFile_of_failed_store sound stored
  refine ⟨leaves.files.sound, same, ?_⟩
  cases holds with
  | nothing noFile =>
      exact .nothing fun content mode => mt (same.file content mode).mp (noFile content mode)
  | table table =>
      obtain ⟨read, accepted⟩ := isTable_iff.mp table
      obtain ⟨content, there, decoded⟩ := read_of_loaded read
      refine .table (isTable_iff.mpr ⟨?_, accepted⟩)
      unfold loaded
      rw [same.read leaves.files there]
      exact decoded

/-- An append that succeeds leaves the rows before it with the new one behind them, in a table that
is accepted, and its matrix has grown. -/
theorem append_succeeds (sound : w.files.IsSound) (holds : Holds p w rows m)
    (standard : ∀ r ∈ rows ++ [row], r.HasStandardVersion)
    (h : (append p row).outcome w = (.ok (), w')) :
    w'.files.IsSound ∧ ∃ after larger, IsTable p w' after larger ∧
      List.Forall₂ MatrixRow.Alike (rows ++ [row]) after ∧ Matrix.IsGrown m larger := by
  rcases append_ends h with ⟨⟨e, failed⟩, _⟩ | ⟨found, larger, goesOn, made, stored⟩
  · exact absurd failed (by simp)
  obtain rfl := holds.current_eq goesOn
  have alike := MatrixRow.alike_map_inOrder (found ++ [row])
  refine ⟨(Leaves.storeJson_anywhere sound stored).files.sound, _, larger, ?_, alike, ?_⟩
  · rw [isTable_iff, ← MatrixRow.matrix_alike alike]
    exact ⟨loaded_of_stored (MatrixRow.named_of_matrix made) sound stored, made⟩
  · cases holds with
    | nothing _ => exact MatrixRow.isGrown_of_first made
    | table table => exact MatrixRow.isGrown_of_matrix standard (isTable_iff.mp table).2 made

/-! ## Runs of appends -/

/-- The workspace after some rows were to be appended, one after the other. -/
def appendAll (p : Path) : List MatrixRow → Workspace → Workspace
  | [], w => w
  | row :: rest, w => appendAll p rest ((append p row).outcome w).2

/-- After a run of appends the path still holds a table or nothing. -/
theorem appendAll_holds {more : List MatrixRow} (sound : w.files.IsSound) (holds : Holds p w rows m)
    (standard : ∀ r ∈ rows, r.HasStandardVersion) (also : ∀ r ∈ more, r.HasStandardVersion) :
    (appendAll p more w).files.IsSound ∧ ∃ after larger, Holds p (appendAll p more w) after larger ∧
      ∀ r ∈ after, r.HasStandardVersion := by
  induction more generalizing w rows m with
  | nil => exact ⟨sound, rows, m, holds, standard⟩
  | cons row rest ih =>
      obtain ⟨first, others⟩ := List.forall_mem_cons.mp also
      rcases ended : (append p row).outcome w with ⟨result, w₁⟩
      have onward : appendAll p (row :: rest) w = appendAll p rest w₁ := by rw [appendAll, ended]
      rw [onward]
      cases result with
      | error e =>
          obtain ⟨sound₁, _, holds₁⟩ := append_fails sound holds ended
          exact ih sound₁ holds₁ standard others
      | ok _ =>
          have all : ∀ r ∈ rows ++ [row], r.HasStandardVersion :=
            List.forall_mem_append.mpr ⟨standard, List.forall_mem_singleton.mpr first⟩
          obtain ⟨sound₁, after, larger, table, alike, _⟩ := append_succeeds sound holds all ended
          exact ih sound₁ (.table table) (MatrixRow.standard_of_alike alike all) others

/-- Wherever a run of appends has come from a table or from where no file was, the path holds a
table or nothing still. An append that fails then leaves the file as it was. One that succeeds
leaves an accepted table whose rows are those before, up to the order of the flags in a row, and the
new one behind them; the matrix has the earlier entries with one behind them, and ends each request
up to its former newest version as it did. -/
theorem append_only {earlier : List MatrixRow} {result : Except Fault Unit}
    (sound : w.files.IsSound)
    (begins : w.files.node? (w.files.placeOf p) = none ∨
      ∃ rows m, IsTable p w rows m ∧ ∀ r ∈ rows, r.HasStandardVersion)
    (standard : ∀ r ∈ earlier ++ [row], r.HasStandardVersion)
    (h : (append p row).outcome (appendAll p earlier w) = (result, w')) :
    ∃ rows m, Holds p (appendAll p earlier w) rows m ∧
      (∀ e, result = .error e → HasSameFile p (appendAll p earlier w) w' ∧ Holds p w' rows m) ∧
      (result = .ok () → ∃ after larger, IsTable p w' after larger ∧
        List.Forall₂ MatrixRow.Alike (rows ++ [row]) after ∧ Matrix.IsGrown m larger) := by
  obtain ⟨before, last⟩ := List.forall_mem_append.mp standard
  obtain ⟨rows, m, holds, standardRows⟩ :
      ∃ rows m, Holds p w rows m ∧ ∀ r ∈ rows, r.HasStandardVersion := by
    rcases begins with absent | ⟨rows, m, table, standardRows⟩
    · exact ⟨[], .empty, .nothing fun _ _ file => by simp [absent] at file, List.forall_mem_nil _⟩
    · exact ⟨rows, m, .table table, standardRows⟩
  obtain ⟨sound₁, rows₁, m₁, holds₁, standard₁⟩ :=
    appendAll_holds sound holds standardRows before
  refine ⟨rows₁, m₁, holds₁, ?_, ?_⟩
  · rintro e rfl
    exact (append_fails sound₁ holds₁ h).2
  · rintro rfl
    exact (append_succeeds sound₁ holds₁ (List.forall_mem_append.mpr ⟨standard₁, last⟩) h).2

end MatrixTable

namespace Sample

open MatrixRow MatrixTable Version

/-- A workspace with one empty directory, in which the table is to be. -/
def folder : Workspace := ⟨.empty ["p"], [], "1"⟩

/-- The path of the table. -/
def tablePath : Path := Path.ofText "table.json"

/-- The first row of a table: two flags come. -/
def firstRow : MatrixRow := ⟨"1.0.0", ["notify", "attach"], [], true, false⟩

/-- A later row: a flag goes. -/
def secondRow : MatrixRow := ⟨"1.1.0-rc.1", [], ["notify"], false, true⟩

set_option maxRecDepth 100000 in
/-- The second row stands behind the first one in a table whose matrix has grown. -/
theorem append_only_of_second :
    folder.files.IsSound ∧ folder.files.node? (folder.files.placeOf tablePath) = none ∧
    (∀ r ∈ [firstRow] ++ [secondRow], r.HasStandardVersion) ∧
    ∃ w' rows m after larger,
      (append tablePath secondRow).outcome (appendAll tablePath [firstRow] folder) = (.ok (), w') ∧
      Holds tablePath (appendAll tablePath [firstRow] folder) rows m ∧
      IsTable tablePath w' after larger ∧ after.map MatrixRow.version = ["1.0.0", "1.1.0-rc.1"] ∧
      List.Forall₂ MatrixRow.Alike (rows ++ [secondRow]) after ∧ Matrix.IsGrown m larger := by
  have sound : folder.files.IsSound := isSound_of_nodes (by decide +kernel) (by decide +kernel)
  have absent : folder.files.node? (folder.files.placeOf tablePath) = none := by decide +kernel
  have standard : ∀ r ∈ [firstRow] ++ [secondRow], r.HasStandardVersion := by decide +kernel
  have given : (append tablePath secondRow).gives (appendAll tablePath [firstRow] folder)
      (fun _ w' => passes (loaded tablePath w'.files) fun rows =>
        rows.map MatrixRow.version = ["1.0.0", "1.1.0-rc.1"]) = true := by
    decide +kernel
  obtain ⟨_, w', ended, read⟩ := exists_of_gives given
  obtain ⟨found, loaded, versions⟩ := exists_of_passes read
  obtain ⟨rows, m, holds, _, grows⟩ := append_only sound (.inl absent) standard ended
  obtain ⟨after, larger, table, alike, grown⟩ := grows rfl
  obtain rfl := Except.ok.inj (loaded.symm.trans (isTable_iff.mp table).1)
  exact ⟨sound, absent, standard, w', rows, m, found, larger, ended, holds, table,
    of_decide_eq_true versions, alike, grown⟩

/-- A row of a pre-release with a long number. -/
def longRow : MatrixRow := ⟨longVersion.toText, [], [], true, false⟩

/-- The entry that it adds. -/
def longEntry : ApiEntry := ⟨longVersion, [], false, true, []⟩

/-- A row of a release behind it. -/
def laterRow : MatrixRow := ⟨"2.0.0", [], [], true, false⟩

/-- The entry that it adds. -/
def laterEntry : ApiEntry := ⟨⟨2, 0, 0, [], []⟩, [], false, true, []⟩

/-- The first pre-release stands below that with a long number. -/
theorem below_longVersion : Below numberedFirst longVersion := by
  have unit : (0x31 : CodePoint).val - 0x30 = 1 := by decide
  have value : Text.numeral longNumber =
      10 * Text.numeral (List.replicate Decimal.digitLimit 0x31) + 1 := by
    rw [longNumber, List.replicate_succ', Text.numeral_concat, unit]
  have positive : 0 < Text.numeral (List.replicate Decimal.digitLimit 0x31) := by
    rw [show Decimal.digitLimit = 4299 + 1 from rfl, List.replicate_succ]
    exact Text.numeral_pos (by decide) _
  have one : Text.numeral "1" = 1 := by decide
  have less : Text.numeral "1" < Text.numeral longNumber := by omega
  exact .identifiers rfl (List.cons_ne_nil _ _)
    (.first (.numbers (by decide) isDigits_longNumber less) [] [])

/-- A request below the only entry of a table, with which it cannot be compared, is neither answered
nor refused as too old, before a later row is appended as after it. -/
theorem long_row_not_answered :
    MatrixRow.matrix [longRow] = .ok ⟨[longEntry]⟩ ∧ checkNewer [longRow] laterRow = .ok () ∧
    MatrixRow.matrix ([longRow] ++ [laterRow]) = .ok ⟨[longEntry, laterEntry]⟩ ∧
    longVersion.IsStandard ∧ numberedFirst.IsStandard ∧ Below numberedFirst longVersion ∧
    ∃ f, (⟨[longEntry]⟩ : Matrix).resolve numberedFirst = .error (.badVersion f) ∧
      (⟨[longEntry, laterEntry]⟩ : Matrix).resolve numberedFirst = .error (.badVersion f) := by
  have later : parse laterRow.version = .ok laterEntry.version := by rfl
  have behind : accumulate longEntry.flags [laterRow] = .ok [laterEntry] :=
    accumulate_cons_eq_ok.mpr ⟨rfl, _, later, [], rfl, rfl⟩
  refine ⟨?_, ?_, ?_, isStandard_longVersion, by decide, below_longVersion, _,
    Matrix.resolve_of_refused order_longVersion, Matrix.resolve_of_refused order_longVersion⟩
  · exact matrix_eq_ok.mpr ⟨[longEntry],
      accumulate_cons_eq_ok.mpr ⟨rfl, _, parse_longVersion, [], rfl, rfl⟩, rfl⟩
  · unfold checkNewer
    show (parse longVersion.toText).mapError _ >>= _ = _
    rw [parse_longVersion]
    rfl
  · exact matrix_eq_ok.mpr ⟨[longEntry, laterEntry],
      accumulate_cons_eq_ok.mpr ⟨rfl, _, parse_longVersion, _, behind, rfl⟩, rfl⟩

end Sample

end ModulePackaging
