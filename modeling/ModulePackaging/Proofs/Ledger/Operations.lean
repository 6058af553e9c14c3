import ModulePackaging.Proofs.Ledger.Files
import ModulePackaging.Proofs.Precedence

/-!
# Operations on a ledger file

What a record and an undone record do to a ledger file, in every way they can end. A record that
succeeds puts the release in the place of its numeric id, over an entry that it carries on from; one
that is undone puts the entry before it back. What fails leaves the ledger as it was.
-/

namespace ModulePackaging

open Files Files.Tree Action

/-! ## Entries that carry on from others -/

/-- An entry whose version does not stand below that of another one. -/
def LedgerEntry.IsNotOlder (later earlier : LedgerEntry) : Prop :=
  ∃ v w, Version.parse earlier.version = .ok v ∧ Version.parse later.version = .ok w ∧
    v.precedence ≤ w.precedence

/-- An entry whose version is of the standard grammar. -/
def LedgerEntry.HasStandardVersion (entry : LedgerEntry) : Prop :=
  ∃ v, Version.parse entry.version = .ok v ∧ v.IsStandard

namespace LedgerEntry

variable {a b c : LedgerEntry}

theorem IsNotOlder.trans (h : a.IsNotOlder b) (k : b.IsNotOlder c) : a.IsNotOlder c := by
  obtain ⟨v, w, readB, readA, up⟩ := h
  obtain ⟨u, v', readC, readB', up'⟩ := k
  obtain rfl : v' = v := Except.ok.inj (readB'.symm.trans readB)
  exact ⟨u, w, readC, readA, up'.trans up⟩

theorem HasStandardVersion.isNotOlder (h : a.HasStandardVersion) : a.IsNotOlder a := by
  obtain ⟨v, read, _⟩ := h
  exact ⟨v, v, read, read, le_rfl⟩

end LedgerEntry

namespace Ledger

variable {ledger : Ledger} {p : Path} {w w' : Workspace} {d : Descriptor}

/-- A release that passes the check has the name that its id has, and is compared with the version
that the id has. -/
theorem check_gives {prior : LedgerEntry} (h : ledger.check d = .ok ())
    (found : ledger.find? d.numericId = some prior) :
    prior.name = d.name ∧ ∃ v r, Version.parse d.version = .ok v ∧
      Version.parse prior.version = .ok r ∧ v.precedes r = .ok false := by
  unfold check at h
  rw [found] at h
  obtain ⟨name, h⟩ := guard_eq_ok.mp h
  obtain ⟨v, version, h⟩ := bind_eq_ok.mp h
  obtain ⟨r, released, h⟩ := bind_eq_ok.mp h
  obtain ⟨older, compared, h⟩ := bind_eq_ok.mp h
  obtain ⟨notOlder, _⟩ := guard_eq_ok.mp h
  refine ⟨by simpa using name, v, r, mapError_eq_ok.mp version, mapError_eq_ok.mp released, ?_⟩
  rw [mapError_eq_ok.mp compared, Bool.eq_false_iff.mpr notOlder]

/-- A release that passes the check carries on from the entry that its id has. -/
theorem isNotOlder_of_check {prior : LedgerEntry} (h : ledger.check d = .ok ())
    (found : ledger.find? d.numericId = some prior) (standard : (entryFor d).HasStandardVersion)
    (also : prior.HasStandardVersion) : (entryFor d).IsNotOlder prior := by
  obtain ⟨_, v, r, version, released, notBelow⟩ := check_gives h found
  obtain ⟨v', version', standard⟩ := standard
  obtain ⟨r', released', also⟩ := also
  obtain rfl : v' = v := Except.ok.inj (version'.symm.trans version)
  obtain rfl : r' = r := Except.ok.inj (released'.symm.trans released)
  have told := Except.ok.inj ((Version.precedes_agrees standard also).eq_of_ok notBelow)
  exact ⟨r', v', released, version, not_lt.mp (of_decide_eq_false told)⟩

/-! ## What one operation does -/

/-- Files in which what a ledger's path leads to changes only where it is touched. -/
structure IsKept (p : Path) (w : Workspace) : Prop where
  sound : w.files.IsSound
  settled : w.files.IsSettled p
  short : HasShortNames p

/-- Saving keeps the files sound, wherever it is done. -/
theorem isSound_of_save {result : Except Fault Unit} (sound : w.files.IsSound)
    (h : (ledger.save p).outcome w = (result, w')) : w'.files.IsSound := by
  rcases save_ends h with ⟨_, rfl⟩ | ⟨_, stored⟩
  · exact sound
  · exact (Leaves.storeJson_anywhere sound stored).files.sound

theorem isKept_of_save {result : Except Fault Unit} (kept : IsKept p w)
    (h : (ledger.save p).outcome w = (result, w')) : IsKept p w' := by
  refine ⟨isSound_of_save kept.sound h, ?_, kept.short⟩
  rcases save_ends h with ⟨_, rfl⟩ | ⟨_, stored⟩
  · exact kept.settled
  · exact (Leaves.storeJson_anywhere kept.sound stored).settled kept.settled

/-- After a save the path of the ledger leads to it. -/
theorem isKept_of_saved (sound : w.files.IsSound) (form : ledger.IsSound)
    (h : (ledger.save p).outcome w = (.ok (), w')) : IsKept p w' := by
  obtain ⟨_, _, ⟨_, there⟩, _⟩ := save_gives sound form h
  exact ⟨isSound_of_save sound h, .inl ⟨_, there.reached⟩, hasShortNames_of_resolve there.reached⟩

theorem isSound_of_record {result : Except Fault (Option LedgerEntry)} (sound : w.files.IsSound)
    (h : (record p d).outcome w = (result, w')) : w'.files.IsSound := by
  rcases record_saves h with rfl | ⟨_, _, saving⟩
  · exact sound
  · exact isSound_of_save sound saving

theorem isKept_of_record {result : Except Fault (Option LedgerEntry)} (kept : IsKept p w)
    (h : (record p d).outcome w = (result, w')) : IsKept p w' := by
  rcases record_saves h with rfl | ⟨_, _, saving⟩
  · exact kept
  · exact isKept_of_save kept saving

/-- What a record that succeeds does: the release was allowed, and takes the place of its id. -/
theorem record_succeeds {draft : Draft} {prior : Option LedgerEntry} (sound : w.files.IsSound)
    (checked : draft.check = .ok d) (h : (record p d).outcome w = (.ok prior, w')) :
    IsKept p w' ∧ ∃ ledger read, loaded p w.files = .ok ledger ∧ ledger.check d = .ok () ∧
      prior = ledger.find? d.numericId ∧ loaded p w'.files = .ok read ∧
      ∀ n, read.find? n = if d.numericId = n then some (entryFor d) else ledger.find? n := by
  obtain ⟨ledger, found, allowed, saving, before⟩ := record_of_ok h
  have form := (isSound_of_loaded found).put (isSound_entryFor checked)
  obtain ⟨_, _, _, read, again, same⟩ := save_gives sound form saving
  refine ⟨isKept_of_saved sound form saving, ledger, read, found, allowed, before, again,
    fun n => ?_⟩
  rw [same, find?_put]
  rfl

/-- A record that the check refuses does nothing. -/
theorem record_refused {result : Except Fault (Option LedgerEntry)}
    (found : loaded p w.files = .ok ledger) (refused : ledger.check d ≠ .ok ())
    (h : (record p d).outcome w = (result, w')) : w' = w := by
  rcases record_ends h with ⟨_, same⟩ | ⟨other, _, also, allowed, _⟩
  · exact same
  · obtain rfl := Except.ok.inj (found.symm.trans also)
    exact absurd allowed refused

/-- A record that fails for any reason leaves what is loaded as it was. -/
theorem record_fails {e : Fault} (kept : IsKept p w)
    (h : (record p d).outcome w = (.error e, w')) :
    IsKept p w' ∧ loaded p w'.files = loaded p w.files :=
  ⟨isKept_of_record kept h, loaded_of_failed_record kept.sound kept.settled kept.short h⟩

/-- Taking a record back changes the map at the id of the release. -/
theorem find?_takenBack {prior : Option LedgerEntry}
    (same : ∀ e, prior = some e → e.numericId = d.numericId) (n : Int) :
    (ledger.takenBack d prior).find? n = if d.numericId = n then prior else ledger.find? n := by
  cases prior with
  | none => exact find?_drop ledger d.numericId n
  | some e =>
      show (ledger.put e).find? n = _
      rw [find?_put, same e rfl]

/-- What undoing a record does if it succeeds: the entry before it is back in its place. -/
theorem rollback_succeeds {prior : Option LedgerEntry} (sound : w.files.IsSound)
    (form : ∀ e, prior = some e → e.IsSound ∧ e.numericId = d.numericId)
    (h : (rollback p d prior).outcome w = (.ok (), w')) :
    IsKept p w' ∧ ∃ ledger read, loaded p w.files = .ok ledger ∧ loaded p w'.files = .ok read ∧
      ∀ n, read.find? n = if d.numericId = n then prior else ledger.find? n := by
  rcases rollback_ends h with ⟨⟨e, failed⟩, _⟩ | ⟨ledger, found, saving⟩
  · exact absurd failed (by simp)
  · have after : (ledger.takenBack d prior).IsSound :=
      (isSound_of_loaded found).takenBack fun e isPrior => (form e isPrior).1
    obtain ⟨_, _, _, read, again, same⟩ := save_gives sound after saving
    refine ⟨isKept_of_saved sound after saving, ledger, read, found, again, fun n => ?_⟩
    rw [same, find?_takenBack fun e isPrior => (form e isPrior).2]

theorem isSound_of_rollback {prior : Option LedgerEntry} {result : Except Fault Unit}
    (sound : w.files.IsSound) (h : (rollback p d prior).outcome w = (result, w')) :
    w'.files.IsSound := by
  rcases rollback_ends h with ⟨_, rfl⟩ | ⟨_, _, saving⟩
  · exact sound
  · exact isSound_of_save sound saving

/-- Undoing a record that fails leaves what is loaded as it was. -/
theorem rollback_fails {prior : Option LedgerEntry} {e : Fault} (kept : IsKept p w)
    (h : (rollback p d prior).outcome w = (.error e, w')) :
    IsKept p w' ∧ loaded p w'.files = loaded p w.files := by
  rcases rollback_ends h with ⟨_, rfl⟩ | ⟨_, _, saving⟩
  · exact ⟨kept, rfl⟩
  · exact ⟨isKept_of_save kept saving,
      loaded_of_failed_save kept.sound kept.settled kept.short saving⟩

end Ledger

end ModulePackaging
