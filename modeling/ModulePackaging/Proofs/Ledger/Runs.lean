import ModulePackaging.Proofs.Ledger.Operations

/-!
# Runs of records

What many records make of a ledger file that is not there at first. Each numeric id keeps its name,
and its versions never go back, if they are of the standard grammar. In the wider grammar that is
accepted they can: a number with digits of two scripts is above itself and below.
-/

namespace ModulePackaging

open Files Files.Tree Action

namespace Ledger

variable {ledger : Ledger} {p : Path} {w w' : Workspace} {d : Descriptor}

/-- The workspace after some releases were to be recorded, one after the other. -/
def recordAll (p : Path) : List Descriptor → Workspace → Workspace
  | [], w => w
  | d :: rest, w => recordAll p rest ((record p d).outcome w).2

theorem recordAll_append (p : Path) (earlier later : List Descriptor) (w : Workspace) :
    recordAll p (earlier ++ later) w = recordAll p later (recordAll p earlier w) := by
  induction earlier generalizing w with
  | nil => rfl
  | cons d rest ih => exact ih _

/-- A ledger whose entries are those of some releases. -/
def IsOf (releases : List Descriptor) (ledger : Ledger) : Prop :=
  ∀ n e, ledger.find? n = some e → ∃ d ∈ releases, d.numericId = n ∧ e = entryFor d

/-- An entry of an id in place of an earlier one: it has the same name, and a version that is not
older if all releases of the id have standard versions. -/
structure CarriesOn (releases : List Descriptor) (n : Int) (later earlier : LedgerEntry) :
    Prop where
  name : later.name = earlier.name
  version : (∀ d ∈ releases, d.numericId = n → (entryFor d).HasStandardVersion) →
    later.IsNotOlder earlier

theorem CarriesOn.trans {releases : List Descriptor} {n : Int} {a b c : LedgerEntry}
    (h : CarriesOn releases n a b) (k : CarriesOn releases n b c) : CarriesOn releases n a c :=
  ⟨h.name.trans k.name, fun standard => (h.version standard).trans (k.version standard)⟩

/-- A ledger whose entries carry on from those of another one, all of which it has. -/
def Continues (releases : List Descriptor) (ledger after : Ledger) : Prop :=
  ∀ n e, ledger.find? n = some e → ∃ e', after.find? n = some e' ∧ CarriesOn releases n e' e

theorem IsOf.continues {releases : List Descriptor} (h : IsOf releases ledger) :
    Continues releases ledger ledger := by
  intro n e found
  obtain ⟨d, member, number, rfl⟩ := h n e found
  exact ⟨_, found, rfl, fun standard => (standard d member number).isNotOlder⟩

theorem Continues.trans {releases : List Descriptor} {middle after : Ledger}
    (h : Continues releases ledger middle) (k : Continues releases middle after) :
    Continues releases ledger after := by
  intro n e found
  obtain ⟨e', found', carries⟩ := h n e found
  obtain ⟨e'', found'', carries'⟩ := k n e' found'
  exact ⟨e'', found'', carries'.trans carries⟩

/-- A release that the check allows carries on from the entry that it takes the place of. -/
theorem continues_of_check {releases : List Descriptor} {read : Ledger} (h : IsOf releases ledger)
    (member : d ∈ releases) (allowed : ledger.check d = .ok ())
    (same : ∀ n, read.find? n = if d.numericId = n then some (entryFor d) else ledger.find? n) :
    IsOf releases read ∧ Continues releases ledger read := by
  constructor
  · intro n e found
    rw [same] at found
    split at found
    · rename_i here
      exact ⟨d, member, here, (Option.some.inj found).symm⟩
    · exact h n e found
  · intro n e found
    by_cases here : d.numericId = n
    · subst here
      refine ⟨entryFor d, by rw [same, if_pos rfl], (check_gives allowed found).1.symm, ?_⟩
      intro standard
      obtain ⟨d', member', number, rfl⟩ := h _ _ found
      exact isNotOlder_of_check allowed found (standard d member rfl) (standard d' member' number)
    · obtain ⟨e', found', carries⟩ := h.continues n e found
      exact ⟨e', by rw [same, if_neg here, found'], carries⟩

/-- A run of records on a ledger of releases leaves a ledger of releases that carries on from it. -/
theorem recordAll_continues {all releases : List Descriptor} (kept : IsKept p w)
    (found : loaded p w.files = .ok ledger) (of : IsOf all ledger) (inside : releases ⊆ all)
    (checked : ∀ d ∈ releases, ∃ draft : Draft, draft.check = .ok d) :
    IsKept p (recordAll p releases w) ∧ ∃ after,
      loaded p (recordAll p releases w).files = .ok after ∧ IsOf all after ∧
        Continues all ledger after := by
  induction releases generalizing w ledger with
  | nil => exact ⟨kept, ledger, found, of, of.continues⟩
  | cons d rest ih =>
      obtain ⟨member, others⟩ := List.cons_subset.mp inside
      obtain ⟨⟨draft, first⟩, last⟩ := List.forall_mem_cons.mp checked
      rcases ended : (record p d).outcome w with ⟨result, w₁⟩
      have rest' : recordAll p (d :: rest) w = recordAll p rest w₁ := by rw [recordAll, ended]
      rw [rest']
      cases result with
      | error e =>
          obtain ⟨kept₁, same⟩ := record_fails kept ended
          exact ih kept₁ (same.trans found) of others last
      | ok prior =>
          obtain ⟨kept₁, ledger', read, also, allowed, _, again, same⟩ :=
            record_succeeds kept.sound first ended
          obtain rfl := Except.ok.inj (found.symm.trans also)
          obtain ⟨ofRead, continues⟩ := continues_of_check of member allowed same
          obtain ⟨keptAfter, after, foundAfter, ofAfter, continues'⟩ :=
            ih kept₁ again ofRead others last
          exact ⟨keptAfter, after, foundAfter, ofAfter, continues.trans continues'⟩

/-- A workspace in which no file is in the place of a path. -/
structure IsVacant (p : Path) (w : Workspace) : Prop where
  sound : w.files.IsSound
  noFile : ∀ content mode, w.files.node? (w.files.placeOf p) ≠ some (.file content mode)

/-- Where no file is, nothing is released. -/
theorem IsVacant.loaded_eq (vacant : IsVacant p w) (found : loaded p w.files = .ok ledger) :
    ledger = .empty := by
  unfold loaded loadedFrom at found
  split at found
  · exact absurd found (by simp)
  · exact (Except.ok.inj found).symm
  · exact absurd found (by simp)
  · rename_i looked
    obtain ⟨l, reached, there⟩ := resolve_of_lookup looked
    rw [resolve_eq_placeOf reached] at there
    exact absurd there (vacant.noFile _ _)

/-- A save that fails leaves no file where none was, whatever directories it made. -/
theorem IsVacant.of_failed_save {e : Fault} (vacant : IsVacant p w)
    (h : (ledger.save p).outcome w = (.error e, w')) : IsVacant p w' := by
  rcases save_ends h with ⟨_, rfl⟩ | ⟨_, stored⟩
  · exact vacant
  have same := hasSameFile_of_failed_store vacant.sound stored
  exact ⟨(Leaves.storeJson_anywhere vacant.sound stored).files.sound,
    fun content mode there => vacant.noFile content mode ((same.file content mode).mp there)⟩

theorem IsVacant.of_failed_record {e : Fault} (vacant : IsVacant p w)
    (h : (record p d).outcome w = (.error e, w')) : IsVacant p w' := by
  rcases record_of_error h with rfl | ⟨_, saving⟩
  · exact vacant
  · exact vacant.of_failed_save saving

/-- A run of records from where no ledger is ends so, or with a ledger of releases. -/
theorem recordAll_of_vacant {all releases : List Descriptor} (vacant : IsVacant p w)
    (inside : releases ⊆ all) (checked : ∀ d ∈ releases, ∃ draft : Draft, draft.check = .ok d) :
    IsVacant p (recordAll p releases w) ∨ IsKept p (recordAll p releases w) ∧
      ∃ ledger, loaded p (recordAll p releases w).files = .ok ledger ∧ IsOf all ledger := by
  induction releases generalizing w with
  | nil => exact .inl vacant
  | cons d rest ih =>
      obtain ⟨member, others⟩ := List.cons_subset.mp inside
      obtain ⟨⟨draft, first⟩, last⟩ := List.forall_mem_cons.mp checked
      rcases ended : (record p d).outcome w with ⟨result, w₁⟩
      have onward : recordAll p (d :: rest) w = recordAll p rest w₁ := by rw [recordAll, ended]
      rw [onward]
      cases result with
      | error e => exact ih (vacant.of_failed_record ended) others last
      | ok prior =>
          -- The first record that succeeds makes the file; from then on the ledger carries on.
          right
          obtain ⟨kept, ledger, read, found, allowed, _, again, same⟩ :=
            record_succeeds vacant.sound first ended
          obtain rfl := vacant.loaded_eq found
          have nothing : IsOf all empty := by
            intro n e there
            exact absurd there (by simp [find?, empty])
          obtain ⟨of, _⟩ := continues_of_check nothing member allowed same
          obtain ⟨keptAfter, after, foundAfter, ofAfter, _⟩ :=
            recordAll_continues kept again of others last
          exact ⟨keptAfter, after, foundAfter, ofAfter⟩

theorem isKept_recordAll {releases : List Descriptor} (kept : IsKept p w) :
    IsKept p (recordAll p releases w) := by
  induction releases generalizing w with
  | nil => exact kept
  | cons d rest ih =>
      rcases ended : (record p d).outcome w with ⟨result, w₁⟩
      have onward : recordAll p (d :: rest) w = recordAll p rest w₁ := by rw [recordAll, ended]
      rw [onward]
      exact ih (isKept_of_record kept ended)

/-- In a run of records from where no ledger is, each numeric id that has an entry keeps one, under
the same name, and its version never stands lower than before if all releases of the id have
standard versions. A record that the check refuses does nothing at all, and one that fails for
another reason leaves what is loaded as it was, if making directories cannot change where the path
leads. -/
theorem recordAll_ascends {earlier later : List Descriptor} (sound : w.files.IsSound)
    (absent : w.files.node? (w.files.placeOf p) = none)
    (checked : ∀ d ∈ earlier ++ later, ∃ draft : Draft, draft.check = .ok d) :
    (∀ ledger n e, loaded p (recordAll p earlier w).files = .ok ledger → ledger.find? n = some e →
      ∃ after e', loaded p (recordAll p (earlier ++ later) w).files = .ok after ∧
        after.find? n = some e' ∧ CarriesOn (earlier ++ later) n e' e) ∧
    ∀ d fault w', (record p d).outcome (recordAll p earlier w) = (.error fault, w') →
      (∀ ledger, loaded p (recordAll p earlier w).files = .ok ledger → ledger.check d ≠ .ok () →
        w' = recordAll p earlier w) ∧
      (w.files.IsSettled p → HasShortNames p →
        loaded p w'.files = loaded p (recordAll p earlier w).files) := by
  obtain ⟨before, behind⟩ := List.forall_mem_append.mp checked
  constructor
  · intro ledger n e found there
    have vacant : IsVacant p w := ⟨sound, fun _ _ file => by simp [absent] at file⟩
    rcases recordAll_of_vacant vacant (List.subset_append_left earlier later) before with
      still | ⟨kept, ledger', also, of⟩
    · rw [still.loaded_eq found] at there
      exact absurd there (by simp [find?, empty])
    · obtain rfl := Except.ok.inj (found.symm.trans also)
      obtain ⟨_, after, foundAfter, _, continues⟩ :=
        recordAll_continues kept found of (List.subset_append_right earlier later) behind
      obtain ⟨e', there', carries⟩ := continues n e there
      rw [recordAll_append]
      exact ⟨after, e', foundAfter, there', carries⟩
  · intro d fault w' failed
    constructor
    · intro ledger found refused
      exact record_refused found refused failed
    · intro settled short
      exact (record_fails (isKept_recordAll ⟨sound, settled, short⟩) failed).2

end Ledger

namespace Sample

open Ledger

/-- A release of one package. -/
def release (version : Text) : Descriptor where
  name := "demo"
  numericId := 7
  version := version
  buildId := ""
  buildIdNamespace := "demo"
  confidentiality := .everyone
  hostTriple := "x86_64-linux"
  docTitle := "demo"
  description := ""

/-- A workspace with one empty directory, in which the ledger is to be. -/
def channel : Workspace := ⟨.empty ["p"], [], "1"⟩

/-- The path of the ledger. -/
def releases : Path := Path.ofText "releases.json"

/-- Whether a ledger file has a version of the package. -/
def hasVersion (version : Text) (w : Workspace) : Bool :=
  passes (loaded releases w.files) fun ledger =>
    decide ((ledger.find? 7).map LedgerEntry.version = some version)

theorem exists_of_hasVersion {version : Text} {w : Workspace} (h : hasVersion version w = true) :
    ∃ ledger e, loaded releases w.files = .ok ledger ∧ ledger.find? 7 = some e ∧
      e.version = version := by
  obtain ⟨ledger, found, has⟩ := exists_of_passes h
  obtain ⟨e, there, same⟩ := Option.map_eq_some_iff.mp (of_decide_eq_true has)
  exact ⟨ledger, e, found, there, same⟩

/-- Whether a release is one that a draft is checked to be. -/
def isChecked (d : Descriptor) : Bool := passes d.draft.check fun found => decide (found = d)

theorem exists_of_isChecked {releases : List Descriptor} (h : releases.all isChecked = true) :
    ∀ d ∈ releases, ∃ draft : Draft, draft.check = .ok d := by
  intro d member
  obtain ⟨found, checked, same⟩ := exists_of_passes (List.all_eq_true.mp h d member)
  rw [of_decide_eq_true same] at checked
  exact ⟨_, checked⟩

set_option maxRecDepth 100000 in
/-- After a second release the package has an entry that carries on from that of the first. -/
theorem recordAll_ascends_of_two :
    ∃ ledger e after e', loaded releases (recordAll releases [release "1.0.0"] channel).files =
        .ok ledger ∧ ledger.find? 7 = some e ∧
      loaded releases (recordAll releases [release "1.0.0", release "1.1.0"] channel).files =
        .ok after ∧ after.find? 7 = some e' ∧
      CarriesOn [release "1.0.0", release "1.1.0"] 7 e' e := by
  have first : hasVersion "1.0.0" (recordAll releases [release "1.0.0"] channel) = true := by
    decide +kernel
  obtain ⟨ledger, e, found, there, _⟩ := exists_of_hasVersion first
  have sound : channel.files.IsSound := isSound_of_nodes (by decide +kernel) (by decide +kernel)
  have checked : ([release "1.0.0"] ++ [release "1.1.0"]).all isChecked = true := by
    decide +kernel
  obtain ⟨carried, _⟩ := recordAll_ascends (p := releases) sound (by decide +kernel)
    (exists_of_isChecked checked)
  obtain ⟨after, e', again, behind, carries⟩ := carried ledger 7 e found there
  exact ⟨ledger, e, after, e', found, there, again, behind, carries⟩

/-- Three releases: the second one's version has a number of one ASCII digit and a wide one. -/
def goingBack : List Descriptor := [
  release "1.0.0-11.5", release "1.0.0-1\uFF11.0", release "1.0.0-11.3"]

set_option maxRecDepth 100000 in
/-- A version goes back: a number that is 11 in two scripts is let in above 11.5, and below 11.3. -/
theorem version_goes_back :
    (∀ d ∈ goingBack, ∃ draft : Draft, draft.check = .ok d) ∧
    ∃ ledger e after e', loaded releases (recordAll releases (goingBack.take 1) channel).files =
        .ok ledger ∧ ledger.find? 7 = some e ∧ e.HasStandardVersion ∧
      loaded releases (recordAll releases goingBack channel).files = .ok after ∧
      after.find? 7 = some e' ∧ e'.HasStandardVersion ∧ ¬ e'.IsNotOlder e := by
  have checked : goingBack.all isChecked = true := by decide +kernel
  have first : hasVersion "1.0.0-11.5" (recordAll releases (goingBack.take 1) channel) = true := by
    decide +kernel
  have last : hasVersion "1.0.0-11.3" (recordAll releases goingBack channel) = true := by
    decide +kernel
  have high : Version.parse "1.0.0-11.5" = .ok ⟨1, 0, 0, ["11", "5"], []⟩ := by rfl
  have low : Version.parse "1.0.0-11.3" = .ok ⟨1, 0, 0, ["11", "3"], []⟩ := by rfl
  have highStandard : Version.IsStandard ⟨1, 0, 0, ["11", "5"], []⟩ := by decide
  have lowStandard : Version.IsStandard ⟨1, 0, 0, ["11", "3"], []⟩ := by decide
  have below : Version.precedes ⟨1, 0, 0, ["11", "3"], []⟩ ⟨1, 0, 0, ["11", "5"], []⟩ =
      .ok true := by rfl
  have order := Except.ok.inj
    ((Version.precedes_agrees lowStandard highStandard).eq_of_ok below)
  obtain ⟨ledger, e, found, there, version⟩ := exists_of_hasVersion first
  obtain ⟨after, e', again, behind, version'⟩ := exists_of_hasVersion last
  refine ⟨exists_of_isChecked checked, ledger, e, after, e', found, there,
    ⟨_, version ▸ high, highStandard⟩, again, behind, ⟨_, version' ▸ low, lowStandard⟩, ?_⟩
  rintro ⟨v, w, read, read', upwards⟩
  rw [version, high] at read
  rw [version', low] at read'
  obtain rfl := Except.ok.inj read
  obtain rfl := Except.ok.inj read'
  exact absurd (of_decide_eq_true order) (not_lt.mpr upwards)

end Sample

end ModulePackaging
