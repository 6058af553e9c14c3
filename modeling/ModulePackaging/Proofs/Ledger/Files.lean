import ModulePackaging.Proofs.Files.Storing
import ModulePackaging.Proofs.Json.Files
import ModulePackaging.Proofs.Ledger.Entries

/-!
# Ledgers in files

What loading a ledger gives depends only on what its path leads to. A ledger that is saved is loaded
as the same map, so recording a release changes the map at its numeric id, and taking the record
back gives the map before, as long as the ledger can be saved again.
-/

namespace ModulePackaging.Ledger

open Files Files.Tree Action

variable {ledger : Ledger} {p : Path} {w w' : Workspace} {d : Descriptor}
  {touched made : Location → Prop}

/-! ## Loading -/

/-- The ledger in what a path leads to. -/
def loadedFrom (p : Path) : Except Files.Error (Option Node) → Except Fault Ledger
  | .error e => .error (.files e)
  | .ok none => .ok .empty
  | .ok (some .directory) => .error (.files (.refused .isDirectory p.toText))
  | .ok (some (.file content _)) => do
    (ofJson (← Json.ofFile content)).mapError fun e => .badValue e.message

/-- The ledger that loading gives in some files. -/
def loaded (p : Path) (tree : Tree) : Except Fault Ledger := loadedFrom p (tree.lookup p)

/-- Loading a ledger only looks at the files. -/
theorem outcome_load (p : Path) (w : Workspace) :
    (load p).outcome w = (loaded p w.files, w) := by
  unfold load loaded Tree.holds
  rw [outcome_bind, outcome_ask]
  cases looked : w.files.lookup p with
  | error e => rfl
  | ok found =>
      cases found with
      | none => rfl
      | some node =>
          obtain ⟨l, reached, there⟩ := resolve_of_lookup looked
          simp only [mapError_ok, bind, Except.bind, pure, Except.pure, Option.isSome_some,
            if_true]
          show (Action.readJson p >>= fun v =>
            Action.ofExcept (fun e => .badValue (LedgerError.message e)) (ofJson v)).outcome w = _
          rw [outcome_bind, Json.outcome_readJson]
          cases node with
          | directory =>
              have refused : w.files.read p = .error (.refused .isDirectory p.toText) := by
                unfold Tree.read
                rw [reached]
                simp only [bind, Except.bind, there]
                rfl
              rw [refused]
              rfl
          | file content mode =>
              have read : w.files.read p = .ok content := read_eq_ok.mpr ⟨l, mode, reached, there⟩
              rw [read]
              simp only [mapError_ok, bind, Except.bind, loadedFrom]
              cases Json.ofFile content with
              | error e => rfl
              | ok v => exact outcome_ofExcept _ _ w

/-- A ledger that was loaded is empty, or was read from a value. -/
theorem ofJson_of_loaded {tree : Tree} (h : loaded p tree = .ok ledger) :
    ledger = .empty ∨ ∃ value, ofJson value = .ok ledger := by
  unfold loaded loadedFrom at h
  split at h
  · exact absurd h (by simp)
  · exact .inl (Except.ok.inj h).symm
  · exact absurd h (by simp)
  · obtain ⟨value, _, read⟩ := bind_eq_ok.mp h
    exact .inr ⟨value, mapError_eq_ok.mp read⟩

theorem isSound_of_loaded {tree : Tree} (h : loaded p tree = .ok ledger) : ledger.IsSound := by
  rcases ofJson_of_loaded h with rfl | ⟨_, read⟩
  · exact isSound_empty
  · exact isSound_of_ofJson read

theorem isLong_of_loaded {tree : Tree} (h : loaded p tree = .ok ledger) :
    ∀ e ∈ ledger.entries, Decimal.isLong e.numericId = false := by
  rcases ofJson_of_loaded h with rfl | ⟨_, read⟩
  · exact List.forall_mem_nil _
  · exact isLong_of_ofJson read

/-! ## Saving -/

/-- A ledger without long numeric ids is stored when it is saved. -/
theorem outcome_save (short : ∀ e ∈ ledger.entries, Decimal.isLong e.numericId = false)
    (w : Workspace) :
    (ledger.save p).outcome w = (Action.storeJson p ledger.toJson).outcome w := by
  have none : (ledger.entries.any fun entry => Decimal.isLong entry.numericId) = false := by
    rw [List.any_eq_false]
    intro e member
    simp [short e member]
  unfold save
  rw [none]
  rfl

/-- A ledger with a long numeric id is not saved, whatever the files are. -/
theorem outcome_save_long {e : LedgerEntry} (member : e ∈ ledger.entries)
    (long : Decimal.isLong e.numericId = true) (w : Workspace) :
    (ledger.save p).outcome w = (.error (.badValue Decimal.longMessage), w) := by
  have some : (ledger.entries.any fun entry => Decimal.isLong entry.numericId) = true :=
    List.any_eq_true.mpr ⟨e, member, long⟩
  unfold save
  rw [some]
  rfl

/-- A ledger with a long numeric id is not saved; any other one is stored. -/
theorem save_ends {result : Except Fault Unit} (h : (ledger.save p).outcome w = (result, w')) :
    ((∃ e, result = .error e) ∧ w' = w) ∨
      (∀ e ∈ ledger.entries, Decimal.isLong e.numericId = false) ∧
        (Action.storeJson p ledger.toJson).outcome w = (result, w') := by
  by_cases short : ∀ e ∈ ledger.entries, Decimal.isLong e.numericId = false
  · exact .inr ⟨short, outcome_save short w ▸ h⟩
  · simp only [not_forall, Bool.not_eq_false] at short
    obtain ⟨e, member, long⟩ := short
    rw [outcome_save_long member long] at h
    cases h
    exact .inl ⟨⟨_, rfl⟩, rfl⟩

/-- Saving touches the place of the ledger if it succeeds, and the place beside it. -/
theorem save_leaves {result : Except Fault Unit} (sound : w.files.IsSound)
    (steady : w.files.IsSteady p) (beside : touched (w.files.placeOf (p.temporary w.mark)))
    (here : result = .ok () → touched (w.files.placeOf p))
    (above : ∀ l, IsAbove l (w.files.placeOf p) → made l)
    (h : (ledger.save p).outcome w = (result, w')) : Leaves touched made w w' := by
  rcases save_ends h with ⟨_, rfl⟩ | ⟨_, stored⟩
  · exact Leaves.refl sound
  · exact Leaves.storeJson sound steady beside here above stored

/-- A ledger that cannot be saved leaves what is loaded as it was. -/
theorem loaded_of_failed_save {e : Fault} (sound : w.files.IsSound)
    (settled : w.files.IsSettled p) (short : HasShortNames p)
    (h : (ledger.save p).outcome w = (.error e, w')) : loaded p w'.files = loaded p w.files := by
  have leaves : Leaves (fun l => l = w.files.placeOf (p.temporary w.mark))
      (fun l => IsAbove l (w.files.placeOf p)) w w' :=
    save_leaves sound (.inl settled) rfl (by simp) (fun _ => id) h
  unfold loaded
  rw [leaves.files.lookup_eq sound settled short]
  · exact fun same => temporary_ne w.files p w.mark same.symm
  · exact fun above => above.2 rfl

/-- A ledger that is saved is loaded as the same map. -/
theorem save_gives (sound : w.files.IsSound) (form : ledger.IsSound)
    (h : (ledger.save p).outcome w = (.ok (), w')) :
    (∀ e ∈ ledger.entries, Decimal.isLong e.numericId = false) ∧
      (∀ e ∈ ledger.entries, e.IsWritable) ∧
      (∃ content, IsStored w'.files p w.mark content) ∧
      ∃ read, loaded p w'.files = .ok read ∧ ∀ n, read.find? n = ledger.find? n := by
  rcases save_ends h with ⟨⟨e, failed⟩, _⟩ | ⟨short, stored⟩
  · exact absurd failed (by simp)
  obtain ⟨bytes, written, there⟩ := storeJson_gives sound stored
  obtain ⟨read, decoded, same⟩ := ofJson_inOrder form short
  refine ⟨short, exists_storedBytes_iff.mp ⟨bytes, written⟩, ⟨_, there⟩, read, ?_, same⟩
  obtain ⟨mode, file⟩ := there.file
  have parsed : Json.ofFile (bytes ++ [0x0A]) = .ok ledger.toJson.inOrder :=
    Json.ofFile_storedBytes (storable_toJson form.distinct _) written
  unfold loaded
  rw [lookup_of_resolve there.reached, file]
  show (Json.ofFile (bytes ++ [0x0A]) >>= _) = _
  rw [parsed]
  show (ofJson ledger.toJson.inOrder).mapError _ = _
  rw [decoded]
  rfl

/-- Where a ledger is saved already, every ledger that can be written can be saved. -/
theorem save_again {content : Bytes} (sound : w.files.IsSound)
    (there : IsStored w.files p w.mark content)
    (short : ∀ e ∈ ledger.entries, Decimal.isLong e.numericId = false)
    (writable : ∀ e ∈ ledger.entries, e.IsWritable) :
    ∃ w', (ledger.save p).outcome w = (.ok (), w') := by
  obtain ⟨bytes, stored⟩ := exists_storedBytes_iff.mpr writable
  rw [outcome_save short]
  exact storeJson_again sound there stored

/-- Where one ledger is saved, every other one that can be written could be. -/
theorem save_instead {other : Ledger} (sound : w.files.IsSound)
    (h : (other.save p).outcome w = (.ok (), w'))
    (short : ∀ e ∈ ledger.entries, Decimal.isLong e.numericId = false)
    (writable : ∀ e ∈ ledger.entries, e.IsWritable) :
    ∃ w'', (ledger.save p).outcome w = (.ok (), w'') := by
  rcases save_ends h with ⟨⟨e, failed⟩, _⟩ | ⟨_, done⟩
  · exact absurd failed (by simp)
  obtain ⟨bytes, stored⟩ := exists_storedBytes_iff.mpr writable
  rw [outcome_save short]
  exact storeJson_instead sound done stored

/-! ## Recording and taking back -/

/-- Recording fails before it begins, or puts the entry of the release in and saves the ledger. -/
theorem record_ends {result : Except Fault (Option LedgerEntry)}
    (h : (record p d).outcome w = (result, w')) :
    ((∃ e, result = .error e) ∧ w' = w) ∨
      ∃ ledger saved, loaded p w.files = .ok ledger ∧ ledger.check d = .ok () ∧
        ((ledger.put (entryFor d)).save p).outcome w = (saved, w') ∧
        result = saved.map fun _ => ledger.find? d.numericId := by
  unfold record at h
  rw [outcome_bind, outcome_load] at h
  cases found : loaded p w.files with
  | error e =>
      rw [found] at h
      cases h
      exact .inl ⟨⟨_, rfl⟩, rfl⟩
  | ok ledger =>
      rw [found] at h
      simp only at h
      rw [outcome_bind, outcome_ofExcept] at h
      cases checked : ledger.check d with
      | error e =>
          rw [checked] at h
          cases h
          exact .inl ⟨⟨_, rfl⟩, rfl⟩
      | ok _ =>
          rw [checked] at h
          simp only [mapError_ok] at h
          rcases bind_ends h with ⟨e, saved, rfl⟩ | ⟨_, v, saved, h⟩
          · exact .inr ⟨ledger, .error e, rfl, checked, saved, rfl⟩
          · cases h
            exact .inr ⟨ledger, .ok (), rfl, checked, saved, rfl⟩

/-- A record that succeeds was allowed, and saved the ledger with the entry of the release in it. -/
theorem record_of_ok {prior : Option LedgerEntry}
    (h : (record p d).outcome w = (.ok prior, w')) :
    ∃ ledger, loaded p w.files = .ok ledger ∧ ledger.check d = .ok () ∧
      ((ledger.put (entryFor d)).save p).outcome w = (.ok (), w') ∧
      prior = ledger.find? d.numericId := by
  rcases record_ends h with ⟨⟨e, failed⟩, _⟩ | ⟨ledger, saved, found, allowed, saving, result⟩
  · exact absurd failed (by simp)
  · cases saved with
    | error e => exact absurd result (by simp [Except.map])
    | ok _ => exact ⟨ledger, found, allowed, saving, Except.ok.inj result⟩

/-- A record that fails did nothing, or failed when it saved the ledger. -/
theorem record_of_error {e : Fault} (h : (record p d).outcome w = (.error e, w')) :
    w' = w ∨ ∃ content : Ledger, (content.save p).outcome w = (.error e, w') := by
  rcases record_ends h with ⟨_, same⟩ | ⟨ledger, saved, _, _, saving, result⟩
  · exact .inl same
  · cases saved with
    | ok _ => exact absurd result (by simp [Except.map])
    | error f =>
        obtain rfl : e = f := Except.error.inj result
        exact .inr ⟨_, saving⟩

/-- A record does nothing, or saves one ledger. -/
theorem record_saves {result : Except Fault (Option LedgerEntry)}
    (h : (record p d).outcome w = (result, w')) :
    w' = w ∨ ∃ (content : Ledger) (saved : _), (content.save p).outcome w = (saved, w') := by
  rcases record_ends h with ⟨_, same⟩ | ⟨_, saved, _, _, saving, _⟩
  · exact .inl same
  · exact .inr ⟨_, saved, saving⟩

/-- A release that cannot be recorded leaves what is loaded as it was. -/
theorem loaded_of_failed_record {e : Fault} (sound : w.files.IsSound)
    (settled : w.files.IsSettled p) (short : HasShortNames p)
    (h : (record p d).outcome w = (.error e, w')) : loaded p w'.files = loaded p w.files := by
  rcases record_of_error h with rfl | ⟨_, saving⟩
  · rfl
  · exact loaded_of_failed_save sound settled short saving

/-- What a ledger is when a release is taken back. -/
def takenBack (ledger : Ledger) (d : Descriptor) : Option LedgerEntry → Ledger
  | none => ledger.drop d.numericId
  | some prior => ledger.put prior

theorem IsSound.takenBack {prior : Option LedgerEntry} (sound : ledger.IsSound)
    (form : ∀ e, prior = some e → e.IsSound) : (ledger.takenBack d prior).IsSound := by
  cases prior with
  | none => exact sound.drop _
  | some e => exact sound.put (form e rfl)

theorem mem_takenBack {prior : Option LedgerEntry} {e : LedgerEntry}
    (h : e ∈ (ledger.takenBack d prior).entries) : prior = some e ∨ e ∈ ledger.entries := by
  cases prior with
  | none => exact .inr (List.mem_filter.mp h).1
  | some prior => exact (mem_put h).imp_left fun same => congrArg some same.symm

/-- Taking a record back saves the ledger without the release. -/
theorem outcome_rollback {prior : Option LedgerEntry} (found : loaded p w.files = .ok ledger) :
    (rollback p d prior).outcome w = ((ledger.takenBack d prior).save p).outcome w := by
  unfold rollback
  rw [outcome_bind, outcome_load, found]
  cases prior <;> rfl

/-- Taking a record back does nothing if there is no ledger to load, or saves the ledger without the
release. -/
theorem rollback_ends {prior : Option LedgerEntry} {result : Except Fault Unit}
    (h : (rollback p d prior).outcome w = (result, w')) :
    ((∃ e, result = .error e) ∧ w' = w) ∨
      ∃ ledger, loaded p w.files = .ok ledger ∧
        ((ledger.takenBack d prior).save p).outcome w = (result, w') := by
  cases found : loaded p w.files with
  | error e =>
      unfold rollback at h
      rw [outcome_bind, outcome_load, found] at h
      cases h
      exact .inl ⟨⟨_, rfl⟩, rfl⟩
  | ok ledger =>
      rw [outcome_rollback found] at h
      exact .inr ⟨ledger, rfl, h⟩

/-- What is known of a ledger in a file after a release was recorded. -/
structure IsRecorded (ledger read : Ledger) (d : Descriptor) : Prop where
  sound : ledger.IsSound
  readSound : read.IsSound
  same : ∀ n, read.find? n = (ledger.put (entryFor d)).find? n
  short : ∀ e ∈ (ledger.put (entryFor d)).entries, Decimal.isLong e.numericId = false
  writable : ∀ e ∈ (ledger.put (entryFor d)).entries, e.IsWritable

/-- A release that is recorded is in the ledger, and the ledger can be saved again. -/
theorem record_gives {draft : Draft} {prior : Option LedgerEntry} (sound : w.files.IsSound)
    (checked : draft.check = .ok d)
    (h : (record p d).outcome w = (.ok prior, w')) :
    ∃ ledger read, loaded p w.files = .ok ledger ∧ loaded p w'.files = .ok read ∧
      prior = ledger.find? d.numericId ∧ IsRecorded ledger read d ∧
        ∃ content, IsStored w'.files p w.mark content := by
  obtain ⟨ledger, found, _, saving, before⟩ := record_of_ok h
  have form : ledger.IsSound := isSound_of_loaded found
  obtain ⟨short, writable, there, read, again, same⟩ :=
    save_gives sound (form.put (isSound_entryFor checked)) saving
  exact ⟨ledger, read, found, again, before,
    ⟨form, isSound_of_loaded again, same, short, writable⟩, there⟩

namespace IsRecorded

variable {read : Ledger} {prior : Option LedgerEntry}

theorem find?_takenBack (recorded : IsRecorded ledger read d)
    (before : prior = ledger.find? d.numericId) (n : Int) :
    (read.takenBack d prior).find? n = ledger.find? n := by
  cases prior with
  | none =>
      have new : ledger.find? (entryFor d).numericId = none := before.symm
      exact find?_drop_of_put new recorded.same n
  | some prior => exact find?_put_of_put before.symm recorded.same n

theorem isSound_takenBack (recorded : IsRecorded ledger read d)
    (before : prior = ledger.find? d.numericId) : (read.takenBack d prior).IsSound :=
  recorded.readSound.takenBack fun e isPrior =>
    recorded.sound.entries e (find?_eq_some (before.symm.trans isPrior)).1

/-- What was read again has the entries that were saved. -/
theorem mem_read (recorded : IsRecorded ledger read d) {e : LedgerEntry} (h : e ∈ read.entries) :
    e ∈ (ledger.put (entryFor d)).entries := by
  have found := recorded.readSound.find?_eq_some_iff.mpr ⟨h, rfl⟩
  rw [recorded.same] at found
  exact (find?_eq_some found).1

/-- A release can be taken back if the entry before it can be written. -/
theorem exists_save (recorded : IsRecorded ledger read d)
    (before : prior = ledger.find? d.numericId)
    (writable : ∀ e, prior = some e → e.IsWritable) (sound : w.files.IsSound) {content : Bytes}
    (there : IsStored w.files p w.mark content) :
    ∃ w', ((read.takenBack d prior).save p).outcome w = (.ok (), w') := by
  refine save_again sound there ?_ ?_
  · intro e member
    rcases mem_takenBack member with rfl | old
    · have same : e.numericId = (entryFor d).numericId := (find?_eq_some before.symm).2
      rw [same]
      exact recorded.short (entryFor d) (mem_put_self ledger (entryFor d))
    · exact recorded.short e (recorded.mem_read old)
  · intro e member
    rcases mem_takenBack member with rfl | old
    · exact writable e rfl
    · exact recorded.writable e (recorded.mem_read old)

end IsRecorded

end ModulePackaging.Ledger
