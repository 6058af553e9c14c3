import ModulePackaging.HostApi.Table
import ModulePackaging.Proofs.Files.Storing
import ModulePackaging.Proofs.Json.Files
import ModulePackaging.Proofs.VersionOrder

/-!
# Tables of host versions in files

Rows that differ in the order of their flags add up to the same matrix, and a table that is saved is
loaded with the flags of each row in order. So a file holds what was saved as far as it counts, and
one more row is one more entry behind the others.
-/

namespace ModulePackaging

/-- The order of flags does not count in a set of them. -/
theorem flagSet_eq_of_perm {flags others : List Text} (h : flags.Perm others) :
    flagSet flags = flagSet others := by
  have sorted : Text.sorted flags = Text.sorted others := by
    apply sortedBy_eq_of_perm (keyOrder_total id) (keyOrder_trans id) h
    intro a b _ _ up down
    exact Text.le_antisymm (of_decide_eq_true up) (of_decide_eq_true down)
  rw [flagSet, flagSet, sorted]

namespace MatrixRow

variable {row other : MatrixRow} {rows others : List MatrixRow} {current : List Text}
  {entries : List ApiEntry} {m : Matrix}

/-! ## Rows with the same flags -/

/-- Rows that differ in the order of their flags at most. -/
structure Alike (a b : MatrixRow) : Prop where
  version : a.version = b.version
  added : a.added.Perm b.added
  removed : a.removed.Perm b.removed
  forwardCompatible : a.forwardCompatible = b.forwardCompatible
  minSupported : a.minSupported = b.minSupported

/-- A row with its flags in order. -/
def inOrder (row : MatrixRow) : MatrixRow :=
  { row with added := Text.sorted row.added, removed := Text.sorted row.removed }

theorem alike_inOrder (row : MatrixRow) : Alike row row.inOrder :=
  ⟨rfl, (sortedBy_perm _ _).symm, (sortedBy_perm _ _).symm, rfl, rfl⟩

theorem alike_map_inOrder (rows : List MatrixRow) : List.Forall₂ Alike rows (rows.map inOrder) :=
  List.forall₂_map_right_iff.mpr (List.forall₂_same.mpr fun row _ => alike_inOrder row)

/-- Such rows add up to the same entries. -/
theorem accumulate_alike (h : List.Forall₂ Alike rows others) :
    accumulate current rows = accumulate current others := by
  induction h generalizing current with
  | nil => rfl
  | @cons row other rows others alike _ ih =>
      rw [accumulate, accumulate, alike.version, flagSet_eq_of_perm alike.removed,
        flagSet_eq_of_perm (alike.added.append_left _), alike.minSupported,
        alike.forwardCompatible]
      simp only [ih]

theorem matrix_alike (h : List.Forall₂ Alike rows others) : matrix rows = matrix others := by
  rw [matrix, matrix, MatrixRow.entries, MatrixRow.entries, accumulate_alike h]

/-! ## Adding rows up -/

/-- The entry that a row adds behind the flags that are current. -/
def entry (current : List Text) (row : MatrixRow) (v : Version) : ApiEntry :=
  ⟨v, flagSet (flagsWithout current (flagSet row.removed) ++ row.added), row.minSupported,
    row.forwardCompatible, flagSet row.removed⟩

theorem accumulate_cons_eq_ok : accumulate current (row :: rows) = .ok entries ↔
    flagsWithout (flagSet row.removed) current = [] ∧
      ∃ v, Version.parse row.version = .ok v ∧
        ∃ later, accumulate (entry current row v).flags rows = .ok later ∧
          entries = entry current row v :: later := by
  rw [accumulate, guard_eq_ok, bind_eq_ok]
  simp only [mapError_eq_ok, bind_eq_ok, pure, Except.pure, Except.ok.injEq, Bool.not_eq_true,
    Bool.not_eq_false', List.isEmpty_iff, eq_comm (b := entries)]
  rfl

/-- Each entry has the version of its row. -/
theorem version_of_accumulate (h : accumulate current rows = .ok entries) :
    List.Forall₂ (fun row e => Version.parse row.version = .ok e.version) rows entries := by
  induction rows generalizing current entries with
  | nil =>
      obtain rfl := Except.ok.inj h
      exact .nil
  | cons row rest ih =>
      obtain ⟨_, v, parsed, later, more, rfl⟩ := accumulate_cons_eq_ok.mp h
      exact .cons parsed (ih more)

/-- A row behind others adds an entry behind theirs. -/
theorem accumulate_concat (h : accumulate current (rows ++ [row]) = .ok entries) :
    ∃ before e, accumulate current rows = .ok before ∧ entries = before ++ [e] := by
  induction rows generalizing current entries with
  | nil =>
      obtain ⟨_, v, _, later, none, rfl⟩ := accumulate_cons_eq_ok.mp h
      obtain rfl := Except.ok.inj none
      exact ⟨[], _, rfl, rfl⟩
  | cons first rest ih =>
      obtain ⟨known, v, parsed, later, more, rfl⟩ := accumulate_cons_eq_ok.mp h
      obtain ⟨before, e, added, rfl⟩ := ih more
      exact ⟨_ :: before, e, accumulate_cons_eq_ok.mpr ⟨known, v, parsed, before, added, rfl⟩, rfl⟩

theorem matrix_eq_ok : matrix rows = .ok m ↔
    ∃ entries, MatrixRow.entries rows = .ok entries ∧ Matrix.empty.register entries = .ok m := by
  unfold matrix
  rw [bind_eq_ok]
  simp only [mapError_eq_ok]

/-! ## Reading a row back -/

/-- The members of the object of a row. -/
def members (row : MatrixRow) : Members := [
  ("version", .str row.version),
  ("added", .texts (Text.sorted row.added)),
  ("removed", .texts (Text.sorted row.removed)),
  ("forward_compatible", .bool row.forwardCompatible),
  ("min_supported", .bool row.minSupported)]

theorem nodup_keys_members (row : MatrixRow) : (row.members.map Prod.fst).Nodup := by
  show MatrixRow.keys.Nodup
  decide

/-- The object of a row holds the row with its flags in order. -/
theorem ofJson_inOrder (named : row.version ≠ []) (index : Nat) :
    ofJson index row.toJson.inOrder = .ok row.inOrder := by
  have found : ∀ {key : Text} {v : Json}, (key, v) ∈ row.members → Members.get? key
      (Json.Style.inKeyOrder (Json.membersInOrder row.members)) = some v.inOrder :=
    Json.get?_of_mem row.nodup_keys_members
  have version := found (.head _)
  have added := found (.tail _ (.head _))
  have removed := found (.tail _ (.tail _ (.head _)))
  have forward := found (.tail _ (.tail _ (.tail _ (.head _))))
  have supported := found (.tail _ (.tail _ (.tail _ (.tail _ (.head _)))))
  have known : (Members.keys (Json.Style.inKeyOrder (Json.membersInOrder row.members))).filter
      (fun key => key ∉ keys) = [] := by
    rw [List.filter_eq_nil_iff]
    intro key member
    obtain ⟨m, inside, rfl⟩ := List.mem_map.mp member
    rw [Json.Style.mem_inKeyOrder, Json.membersInOrder_eq] at inside
    obtain ⟨m, here, rfl⟩ := List.mem_map.mp inside
    have listed : m.1 ∈ keys := List.mem_map_of_mem (f := Prod.fst) here
    simpa using listed
  show ofJson index (.obj (Json.Style.inKeyOrder (Json.membersInOrder row.members))) = _
  -- From here on it only matters what is under the five keys, and that there are no others.
  generalize Json.Style.inKeyOrder (Json.membersInOrder row.members) = stored at *
  rw [Json.inOrder_texts] at added removed
  obtain ⟨c, rest, form⟩ := List.exists_cons_of_ne_nil named
  have texts : ∀ {key : Text} {ts : List Text}, Members.get? key stored = some (.texts ts) →
      textsAt index stored key = .ok ts := by
    intro key ts there
    unfold textsAt
    rw [there]
    simp only [Json.texts, Json.mapM_text?]
  unfold ofJson
  refine guard_eq_ok.mpr ⟨?_, ?_⟩
  · rw [known]
    decide
  · simp only [version, texts added, texts removed, forward, supported, form, Json.inOrder, bind,
      Except.bind, Option.getD_some]
    rw [inOrder, form]
    rfl

theorem storable_toJson (row : MatrixRow) (depth : Nat) : Json.Storable (depth + 2) row.toJson := by
  apply Json.Storable.obj row.nodup_keys_members
  simp only [members, List.forall_mem_cons, List.not_mem_nil, false_implies, implies_true, and_true]
  exact ⟨.str _, Json.storable_texts depth _, Json.storable_texts depth _, .bool _, .bool _⟩

end MatrixRow

namespace MatrixTable

open Files Files.Tree Action

variable {rows : List MatrixRow} {m : Matrix} {p : Path} {w w' : Workspace}

/-! ## Reading a table back -/

/-- What a table is stored as. -/
def members (rows : List MatrixRow) : Members := [
  ("format", .str "simpack-api-matrix"),
  ("version", .int 0),
  ("rows", .arr (rows.map MatrixRow.toJson))]

theorem nodup_keys_members (rows : List MatrixRow) : ((members rows).map Prod.fst).Nodup := by
  show (["format", "version", "rows"] : List Text).Nodup
  decide

/-- The value that rows are stored as gives the rows again, with their flags in order. -/
theorem rowsOfJson_inOrder (named : ∀ row ∈ rows, row.version ≠ []) :
    rowsOfJson (toJson rows).inOrder = .ok (rows.map MatrixRow.inOrder) := by
  have found : ∀ {key : Text} {v : Json}, (key, v) ∈ members rows → Members.get? key
      (Json.Style.inKeyOrder (Json.membersInOrder (members rows))) = some v.inOrder :=
    Json.get?_of_mem (nodup_keys_members rows)
  have format := found (.head _)
  have version := found (.tail _ (.head _))
  have items := found (.tail _ (.tail _ (.head _)))
  rw [Json.inOrder, Json.itemsInOrder_eq, List.map_map] at items
  have each : (rows.map (Json.inOrder ∘ MatrixRow.toJson)).zipIdx.mapM
      (fun pair => MatrixRow.ofJson pair.2 pair.1) = .ok (rows.map MatrixRow.inOrder) := by
    rw [List.zipIdx_map, List.mapM_map, mapM_eq_pure (g := fun pair => pair.1.inOrder)]
    · show Except.ok (rows.zipIdx.map (MatrixRow.inOrder ∘ Prod.fst)) = _
      rw [← List.map_map, List.zipIdx_map_fst]
    · intro pair member
      exact MatrixRow.ofJson_inOrder (named pair.1 (List.fst_mem_of_mem_zipIdx member)) pair.2
  show rowsOfJson (.obj (Json.Style.inKeyOrder (Json.membersInOrder (members rows)))) = _
  generalize Json.Style.inKeyOrder (Json.membersInOrder (members rows)) = stored at *
  unfold rowsOfJson
  simp only [format, version, items]
  exact each

theorem storable_toJson (rows : List MatrixRow) (depth : Nat) :
    Json.Storable (depth + 4) (toJson rows) := by
  apply Json.Storable.obj (nodup_keys_members rows)
  simp only [members, List.forall_mem_cons, List.not_mem_nil, false_implies, implies_true, and_true]
  refine ⟨.str _, .int (by decide), .arr fun v member => ?_⟩
  obtain ⟨row, _, rfl⟩ := List.mem_map.mp member
  exact row.storable_toJson depth

/-! ## Loading -/

/-- The rows that loading gives in some files. -/
def loaded (p : Path) (tree : Tree) : Except Fault (List MatrixRow) := do
  let value ← (tree.read p).mapError .files >>= Json.ofFile
  (rowsOfJson value).mapError TableError.toFault

/-- Loading a table only looks at the files. -/
theorem outcome_load (p : Path) (w : Workspace) :
    (load p).outcome w = (loaded p w.files, w) := by
  unfold load loaded
  rw [outcome_bind, Json.outcome_readJson]
  cases (w.files.read p).mapError Fault.files >>= Json.ofFile with
  | error e => rfl
  | ok value => exact outcome_ofExcept _ _ w

theorem outcome_loadMatrix (p : Path) (w : Workspace) : (loadMatrix p).outcome w =
    (loaded p w.files >>= fun rows => (MatrixRow.matrix rows).mapError TableError.toFault, w) := by
  unfold loadMatrix
  rw [outcome_bind, outcome_load]
  cases loaded p w.files with
  | error e => rfl
  | ok rows => exact outcome_ofExcept _ _ w

/-! ## Saving -/

/-- Rows that are stored are loaded again, with their flags in order. -/
theorem loaded_of_stored (named : ∀ row ∈ rows, row.version ≠ []) (sound : w.files.IsSound)
    (h : (Action.storeJson p (toJson rows)).outcome w = (.ok (), w')) :
    loaded p w'.files = .ok (rows.map MatrixRow.inOrder) := by
  obtain ⟨bytes, stored, there⟩ := storeJson_gives sound h
  obtain ⟨mode, file⟩ := there.file
  have read : w'.files.read p = .ok (bytes ++ [0x0A]) :=
    read_eq_ok.mpr ⟨_, mode, there.reached, file⟩
  have parsed : Json.ofFile (bytes ++ [0x0A]) = .ok (toJson rows).inOrder :=
    Json.ofFile_storedBytes (storable_toJson rows _) stored
  unfold loaded
  rw [read]
  show (Json.ofFile (bytes ++ [0x0A]) >>= _) = _
  rw [parsed]
  show (rowsOfJson (toJson rows).inOrder).mapError _ = _
  rw [rowsOfJson_inOrder named]
  rfl

end MatrixTable

end ModulePackaging
