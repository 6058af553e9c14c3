import Mathlib.Data.List.Sort
import ModulePackaging.HostApi.Changes
import ModulePackaging.Proofs.HostApi.Appending
import ModulePackaging.Proofs.HostApi.Registering

/-!
# What a row records

The rows of a table are changes, which are added up to the flags of each version, and a report takes
the versions apart again. A row must not remove what is not there, so that what is removed comes out
as it was recorded. It may well add what is there already, and that does not come out.

Main statement (`changes_recorded`).
-/

namespace ModulePackaging

/-! ## Sets of flags -/

namespace Text

/-- Texts in order are gone through from behind those that were taken: each is taken that is not
there yet, and is above all that are. -/
theorem distinct_fold (ts seen : List Text) (order : (seen ++ ts).Pairwise (· ≤ ·))
    (ascending : seen.Pairwise (· < ·)) :
    (ts.foldl (fun seen t => if t ∈ seen then seen else seen ++ [t]) seen).Pairwise (· < ·) ∧
    ∀ t, t ∈ ts.foldl (fun seen t => if t ∈ seen then seen else seen ++ [t]) seen ↔
      t ∈ seen ∨ t ∈ ts := by
  induction ts generalizing seen with
  | nil => simpa using ascending
  | cons first rest ih =>
      rw [List.foldl_cons]
      by_cases there : first ∈ seen
      · rw [if_pos there]
        obtain ⟨above, members⟩ :=
          ih seen (order.sublist ((List.sublist_cons_self first rest).append_left seen)) ascending
        refine ⟨above, fun t => (members t).trans ?_⟩
        grind
      · have last : ∀ t ∈ seen, t < first := by
          intro t member
          have upTo : t ≤ first :=
            (List.pairwise_append.mp order).2.2 t member first List.mem_cons_self
          exact Std.lt_of_le_of_ne upTo (ne_of_mem_of_not_mem member there)
        rw [if_neg there]
        obtain ⟨above, members⟩ := ih (seen ++ [first]) (by simpa using order)
          (List.pairwise_append.mpr ⟨ascending, List.pairwise_singleton _ _, by simpa using last⟩)
        refine ⟨above, fun t => (members t).trans ?_⟩
        grind

end Text

theorem flagSet_spec (flags : List Text) :
    (flagSet flags).Pairwise (· < ·) ∧ ∀ flag, flag ∈ flagSet flags ↔ flag ∈ flags := by
  have sorted := sortedBy_pairwise (keyOrder_total id) (keyOrder_trans id) flags
  obtain ⟨ascending, members⟩ := Text.distinct_fold (Text.sorted flags) []
    (sorted.imp fun order => of_decide_eq_true order) .nil
  refine ⟨ascending, fun flag => (members flag).trans ?_⟩
  simp [Text.sorted]

theorem ascending_flagSet (flags : List Text) : (flagSet flags).Pairwise (· < ·) :=
  (flagSet_spec flags).1

theorem mem_flagSet {flags : List Text} {flag : Text} : flag ∈ flagSet flags ↔ flag ∈ flags :=
  (flagSet_spec flags).2 flag

/-! ## Reports -/

namespace Matrix

open Version

variable {m : Matrix} {entries : List ApiEntry} {e : ApiEntry} {flag : Text}

theorem checkEntry_of_checkAll {previous : Option ApiEntry}
    (h : checkAll previous entries = .ok ()) : ∀ e ∈ entries, checkEntry e = .ok () := by
  induction entries generalizing previous with
  | nil => exact List.forall_mem_nil _
  | cons e rest ih =>
      rw [checkAll] at h
      obtain ⟨_, passed, h⟩ := bind_eq_ok.mp h
      refine List.forall_mem_cons.mpr ⟨passed, ?_⟩
      cases previous with
      | none => exact ih h
      | some p =>
          obtain ⟨_, _, h⟩ := bind_eq_ok.mp h
          exact ih h

/-- No entry both provides a flag and declares it removed. -/
theorem notMem_removedFlags (h : checkEntry e = .ok ()) (here : flag ∈ e.flags) :
    flag ∉ e.removedFlags := by
  intro removed
  have both : flag ∈ e.flags.filter fun flag => flag ∈ e.removedFlags :=
    List.mem_filter.mpr ⟨here, by simpa using removed⟩
  have some : (e.flags.filter fun flag => flag ∈ e.removedFlags).isEmpty = false := by
    simpa using List.ne_nil_of_mem both
  unfold checkEntry at h
  simp only [some] at h
  split at h
  · exact absurd h (by simp [throw, throwThe, MonadExceptOf.throw, bind, Except.bind])
  · exact absurd h throw_ne_ok

variable (standard : ∀ e ∈ entries, e.version.IsStandard)
  (registered : Matrix.empty.register entries = .ok m)

include standard registered

/-- Each version that is registered has its own entry. -/
theorem get_of_register (member : e ∈ entries) : m.get e.version = .ok e := by
  have comparable := areComparable_of_register standard registered
  obtain ⟨rfl, _, ascending⟩ := register_gives standard registered
  obtain ⟨found, isFound, agrees⟩ := find?_agrees ascending standard (standard e member)
  have looked : m.find? e.version = .ok found := by
    -- Only versions that cannot be compared would be in the way.
    rcases agrees with given | ⟨f, ⟨other, inside, ⟨_, refused⟩ | ⟨_, refused⟩⟩, _⟩
    · exact given
    · exact absurd ((order_error_iff (standard e member) (standard other inside)).mp ⟨f, refused⟩)
        (comparable e member other inside)
    · exact absurd ((order_error_iff (standard other inside) (standard e member)).mp ⟨f, refused⟩)
        (comparable other inside e member)
  cases found with
  | none => exact absurd rfl (isFound e member)
  | some other =>
      obtain rfl := ascending.unique isFound.1 member isFound.2
      unfold get
      rw [looked]
      rfl

/-- The report has the difference between each version and the next. -/
theorem changes_of_register : m.changes =
    .ok ((entries.zip entries.tail).map fun pair => .between pair.1 pair.2) := by
  have all := (register_gives standard registered).1
  unfold changes
  rw [all]
  refine mapM_eq_pure fun (older, newer) member => ?_
  obtain ⟨here, there⟩ := List.of_mem_zip member
  show m.diff older.version newer.version = _
  unfold diff
  rw [get_of_register standard registered here,
    get_of_register standard registered (List.mem_of_mem_tail there)]
  rfl

end Matrix

namespace MatrixRow

variable {row : MatrixRow} {rows : List MatrixRow} {m : Matrix} {current before : List Text}
  {entries : List ApiEntry} {a b e : ApiEntry}

/-! ## Rows that are added up -/

/-- An entry that a row adds behind some flags, all of which it may remove. -/
structure Adds (before : List Text) (row : MatrixRow) (e : ApiEntry) : Prop where
  version : Version.parse row.version = .ok e.version
  flags : e.flags = flagSet (flagsWithout before (flagSet row.removed) ++ row.added)
  removedFlags : e.removedFlags = flagSet row.removed
  known : ∀ flag ∈ row.removed, flag ∈ before

/-- Each row adds an entry behind the flags of the one in front of it. -/
theorem adds_of_accumulate {i : Nat} (h : accumulate current rows = .ok entries)
    (here : rows[i]? = some row) (added : entries[i]? = some e)
    (flags : (current :: entries.map ApiEntry.flags)[i]? = some before) : Adds before row e := by
  induction rows generalizing current entries i with
  | nil => exact absurd here (by simp)
  | cons first rest ih =>
      obtain ⟨known, v, parsed, later, more, rfl⟩ := accumulate_cons_eq_ok.mp h
      cases i with
      | zero =>
          obtain rfl := Option.some.inj here
          obtain rfl := Option.some.inj added
          obtain rfl := Option.some.inj flags
          refine ⟨parsed, rfl, rfl, fun flag member => ?_⟩
          by_contra missing
          have unknown : flag ∈ flagsWithout (flagSet first.removed) current :=
            Matrix.mem_flagsWithout.mpr ⟨mem_flagSet.mpr member, missing⟩
          exact absurd known (List.ne_nil_of_mem unknown)
      | succ i => exact ih more here added flags

theorem ascending_of_accumulate (h : accumulate current rows = .ok entries) :
    ∀ e ∈ entries, e.flags.Pairwise (· < ·) := by
  induction rows generalizing current entries with
  | nil =>
      obtain rfl := Except.ok.inj h
      exact List.forall_mem_nil _
  | cons row rest ih =>
      obtain ⟨_, v, _, later, more, rfl⟩ := accumulate_cons_eq_ok.mp h
      exact List.forall_mem_cons.mpr ⟨ascending_flagSet _, ih more⟩

/-- From one entry to the next the flags go that the row removes, and those come that it adds and
that were not there. -/
theorem between_of_adds (ascending : a.flags.Pairwise (· < ·)) (adds : Adds a.flags row b)
    (free : ∀ flag ∈ b.flags, flag ∉ b.removedFlags) :
    (FeatureDiff.between a b).removed = flagSet row.removed ∧
    (FeatureDiff.between a b).added = flagsWithout (flagSet row.added) a.flags := by
  have provided (flag : Text) :
      flag ∈ b.flags ↔ (flag ∈ a.flags ∧ flag ∉ row.removed) ∨ flag ∈ row.added := by
    rw [adds.flags, mem_flagSet, List.mem_append, Matrix.mem_flagsWithout, mem_flagSet]
  have gone (flag : Text) (removed : flag ∈ row.removed) : flag ∉ b.flags := fun here =>
    free flag here (by rwa [adds.removedFlags, mem_flagSet])
  constructor
  · apply (ascending.filter _).eq_of_mem_iff (ascending_flagSet _)
    intro flag
    show flag ∈ flagsWithout a.flags b.flags ↔ _
    rw [Matrix.mem_flagsWithout, mem_flagSet]
    constructor
    · rintro ⟨here, missing⟩
      by_contra kept
      exact missing ((provided flag).mpr (.inl ⟨here, kept⟩))
    · exact fun removed => ⟨adds.known flag removed, gone flag removed⟩
  · have there : b.flags.Pairwise (· < ·) := adds.flags ▸ ascending_flagSet _
    apply (there.filter _).eq_of_mem_iff ((ascending_flagSet _).filter _)
    intro flag
    show flag ∈ flagsWithout b.flags a.flags ↔ flag ∈ flagsWithout (flagSet row.added) a.flags
    rw [Matrix.mem_flagsWithout, Matrix.mem_flagsWithout, mem_flagSet, provided]
    constructor
    · rintro ⟨⟨here, _⟩ | new, missing⟩
      · exact absurd here missing
      · exact ⟨new, missing⟩
    · exact fun ⟨new, missing⟩ => ⟨.inr new, missing⟩

/-- What is left of some flags is all of them exactly if none of them is taken away. -/
theorem flagsWithout_eq_iff {flags others : List Text} :
    flagsWithout (flagSet flags) others = flagSet flags ↔ ∀ flag ∈ flags, flag ∉ others := by
  simp [flagsWithout, mem_flagSet]

/-- The report on a matrix that rows add up to has one change for each row but the first, from the
entry in front of it to that of the row. It removes what the row removes, and adds what the row
adds and was not there: this is all that the row adds exactly if none of that was there. -/
theorem changes_recorded (standard : ∀ row ∈ rows, row.HasStandardVersion)
    (h : matrix rows = .ok m) :
    ∃ changes, m.changes = .ok changes ∧ changes.length + 1 = rows.length ∧
      ∀ i row, rows[i + 1]? = some row → ∃ change before, changes[i]? = some change ∧
        m.entries[i]? = some before ∧ change.older = before.version ∧
        Version.parse row.version = .ok change.newer ∧
        change.removed = flagSet row.removed ∧
        change.added = flagsWithout (flagSet row.added) before.flags ∧
        (change.added = flagSet row.added ↔ ∀ flag ∈ row.added, flag ∉ before.flags) := by
  obtain ⟨entries, added, registered⟩ := matrix_eq_ok.mp h
  have versions := standard_of_accumulate added standard
  have length := (version_of_accumulate added).length_eq
  obtain ⟨all, some, checked⟩ := Matrix.checked_of_register registered
  have positive : 0 < entries.length := List.length_pos_iff.mpr some
  refine ⟨_, Matrix.changes_of_register versions registered, ?_, ?_⟩
  · rw [List.length_map, List.length_zip, List.length_tail]
    omega
  intro i row here
  rw [all]
  have bound := (List.getElem?_eq_some_iff.mp here).1
  obtain ⟨a, first⟩ : ∃ a, entries[i]? = .some a := ⟨_, List.getElem?_eq_getElem (by omega)⟩
  obtain ⟨b, second⟩ : ∃ b, entries[i + 1]? = .some b := ⟨_, List.getElem?_eq_getElem (by omega)⟩
  have adds : Adds a.flags row b := adds_of_accumulate added here second (by simp [first])
  have ascending := ascending_of_accumulate added a (List.mem_of_getElem? first)
  have passed := Matrix.checkEntry_of_checkAll checked b (List.mem_of_getElem? second)
  obtain ⟨removed, new⟩ :=
    between_of_adds ascending adds fun _ => Matrix.notMem_removedFlags passed
  refine ⟨.between a b, a, ?_, first, rfl, adds.version, removed, new, ?_⟩
  · have pair : (entries.zip entries.tail)[i]? = .some (a, b) :=
      List.getElem?_zip_eq_some.mpr ⟨first, by rw [List.getElem?_tail, second]⟩
    rw [List.getElem?_map, pair]
    rfl
  · rw [new, flagsWithout_eq_iff]

end MatrixRow

namespace Sample

open MatrixRow Version

/-- Two rows of a table: behind the first one a flag goes and another one comes. -/
def exchangeRows : List MatrixRow := [firstRow, ⟨"1.1.0", ["detach"], ["attach"], true, false⟩]

/-- The matrix that they make. -/
def exchangeMatrix : Matrix := ⟨[
  ⟨⟨1, 0, 0, [], []⟩, ["attach", "notify"], false, true, []⟩,
  ⟨⟨1, 1, 0, [], []⟩, ["detach", "notify"], false, true, ["attach"]⟩]⟩

/-- The exchange of a flag for another one comes out. -/
theorem changes_recorded_of_exchange :
    (∀ row ∈ exchangeRows, row.HasStandardVersion) ∧ matrix exchangeRows = .ok exchangeMatrix ∧
    ∃ change, exchangeMatrix.changes = .ok [change] ∧ change.removed = ["attach"] ∧
      change.added = ["detach"] := by
  have standard : ∀ row ∈ exchangeRows, row.HasStandardVersion := by decide +kernel
  have made : matrix exchangeRows = .ok exchangeMatrix := by rfl
  obtain ⟨changes, report, length, recorded⟩ := changes_recorded standard made
  obtain ⟨change, before, here, first, _, _, removed, _, all⟩ := recorded 0 _ rfl
  obtain rfl := Option.some.inj first
  have only : changes = [change] := by
    obtain ⟨found, rfl⟩ := List.length_eq_one_iff.mp (Nat.succ.inj length)
    exact congrArg (fun c => [c]) (Option.some.inj here)
  exact ⟨standard, made, change, only ▸ report, removed, all.mpr (by decide)⟩

/-- Two rows of a table of which the second adds the flag of the first again. -/
def repeatingRows : List MatrixRow := [⟨"1.0.0", ["a"], [], true, false⟩,
  ⟨"1.1.0", ["a"], [], true, false⟩]

/-- The matrix that they make. -/
def repeatingMatrix : Matrix := ⟨[⟨⟨1, 0, 0, [], []⟩, ["a"], false, true, []⟩,
  ⟨⟨1, 1, 0, [], []⟩, ["a"], false, true, []⟩]⟩

/-- What the second row adds does not come out. -/
theorem repeated_not_reported :
    matrix repeatingRows = .ok repeatingMatrix ∧
    repeatingMatrix.changes = .ok [⟨⟨1, 0, 0, [], []⟩, ⟨1, 1, 0, [], []⟩, [], []⟩] ∧
    ([] : List Text) ≠ flagSet ["a"] :=
  ⟨rfl, rfl, by decide⟩

/-- Two rows of a table whose versions have the same number in two scripts. -/
def scriptRows : List MatrixRow := [⟨"1.0.0-11", ["a"], [], true, false⟩,
  ⟨"1.0.0-1\uFF11", ["b"], [], true, false⟩]

/-- The matrix that they make. -/
def scriptMatrix : Matrix := ⟨[⟨⟨1, 0, 0, ["11"], []⟩, ["a"], false, true, []⟩,
  ⟨⟨1, 0, 0, ["1\uFF11"], []⟩, ["a", "b"], false, true, []⟩]⟩

/-- Such a table is accepted, and there is no report on it: its second version is not found. -/
theorem scripts_not_reported :
    matrix scriptRows = .ok scriptMatrix ∧
    scriptMatrix.changes = .error (.notRegistered ⟨1, 0, 0, ["1\uFF11"], []⟩) := by
  constructor <;> rfl

end Sample

end ModulePackaging
