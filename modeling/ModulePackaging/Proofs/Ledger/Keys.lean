import ModulePackaging.Proofs.Json.Keys
import ModulePackaging.Proofs.Ledger.Restoring

/-!
# Keys of a ledger file

What becomes of the records of a ledger file. Each is read as an entry of the number that its key
denotes, and of those with one number the ledger has the last: all of them are in it exactly if the
keys denote different numbers, as the keys do under which a ledger is saved. A key is a text, though,
and `01` denotes the same number as `1`, so a file can have a record that is lost.
-/

namespace ModulePackaging

open Files Files.Tree Action

/-- The number that is read from what a number is written as is the number. -/
theorem Decimal.eq_of_whole_ofNat {n : Nat} {m : Int} (h : whole (Text.ofNat n) = .ok m) :
    m = n := by
  have digits := Text.isAsciiDigit_of_mem_ofNat n
  have numeral : (Text.ofNat n).IsNumeral :=
    ⟨Text.ofNat_ne_nil n, fun c member => CodePoint.isDecimal_of_isAsciiDigit (digits c member)⟩
  rw [whole_numeral numeral] at h
  split at h
  · exact absurd h (by simp)
  · rw [← Except.ok.inj h, Text.value_of_digits digits, ofDigits_ofNat]

namespace Ledger

variable {ledger : Ledger} {p : Path} {w w' : Workspace} {d : Descriptor} {value : Json}
  {releases : Members} {records : List LedgerEntry} {entry : LedgerEntry} {key : Text} {n : Int}

/-! ## From records to the ledger -/

/-- A ledger that was read has the entries of the records, put in one after the other. -/
theorem exists_records (h : ofJson value = .ok ledger) :
    ∃ records, entriesOf (releasesOf value) = .ok records ∧ ledger = records.foldl put .empty := by
  have put := putAll_of_ofJson h
  rw [putAll_eq] at put
  cases read : entriesOf (releasesOf value) with
  | error e => exact absurd (read ▸ put) (by simp [Except.map])
  | ok records =>
      rw [read] at put
      exact ⟨records, rfl, (Except.ok.inj put).symm⟩

/-- Of the entries that are put in, the last one of a number is found under it. -/
theorem find?_foldl_put (ledger : Ledger) (records : List LedgerEntry) (n : Int) :
    (records.foldl put ledger).find? n =
      (records.reverse.find? fun e => e.numericId == n).or (ledger.find? n) := by
  induction records generalizing ledger with
  | nil => rfl
  | cons e rest ih =>
      rw [List.foldl_cons, ih, find?_put, List.reverse_cons, List.find?_append, Option.or_assoc]
      congr 1
      by_cases here : e.numericId = n
      · simp [here]
      · simp [here]

/-- The numbers of the entries are those that the keys denote, in the same order. -/
theorem whole_keys (h : entriesOf releases = .ok records) :
    releases.keys.map Decimal.whole = records.map fun e => .ok e.numericId := by
  rw [Members.keys, List.map_map, ← List.forall₂_eq_eq_eq, List.forall₂_map_left_iff,
    List.forall₂_map_right_iff]
  exact (mapM_eq_ok_iff.mp h).imp fun m e read => (entryOf_eq_ok read).2.1

/-- The entries have different numbers when the keys denote different ones. -/
theorem nodup_numericIds_iff (h : entriesOf releases = .ok records) :
    (records.map LedgerEntry.numericId).Nodup ↔ (releases.keys.map Decimal.whole).Nodup := by
  have injective : Function.Injective (Except.ok : Int → Except Decimal.WholeError Int) :=
    fun _ _ => Except.ok.inj
  rw [whole_keys h, ← List.nodup_map_iff injective, List.map_map]
  rfl

/-- Keys that are numbers as they are written denote different numbers when they are different. -/
theorem nodup_whole_of_written (h : entriesOf releases = .ok records)
    (distinct : releases.keys.Nodup) (written : ∀ key ∈ releases.keys, ∃ n, key = Text.ofNat n) :
    (releases.keys.map Decimal.whole).Nodup := by
  refine List.Nodup.map_on (fun a inA b inB same => ?_) distinct
  obtain ⟨j, rfl⟩ := written a inA
  obtain ⟨k, rfl⟩ := written b inB
  -- every key denotes a number, so the two denote the numbers that they are written as
  have denoted := whole_keys h ▸ List.mem_map_of_mem (f := Decimal.whole) inA
  obtain ⟨e, _, number⟩ := List.mem_map.mp denoted
  have first := Decimal.eq_of_whole_ofNat number.symm
  have second := Decimal.eq_of_whole_ofNat (same.symm.trans number.symm)
  exact congrArg Text.ofNat (Int.ofNat.inj (first.symm.trans second))

theorem nodup_keys_releasesOf {content : Bytes} (h : Json.ofFile content = .ok value) :
    (releasesOf value).keys.Nodup := by
  have once := Json.keysOnce_of_ofFile h
  cases once with
  | @obj members _ inner =>
      rw [releasesOf]
      split
      · rename_i found
        have inside := inner _ (Members.mem_of_get?_eq_some found)
        cases inside with
        | obj distinct _ => exact distinct
      · exact List.nodup_nil
  | _ => exact List.nodup_nil

/-! ## From the ledger to records -/

/-- An entry that one of the records is read as. -/
def HasRecord (value : Json) (entry : LedgerEntry) : Prop :=
  ∃ m ∈ releasesOf value, entryOf m.1 m.2 = .ok entry

/-- A ledger is stored with one record for each entry. -/
theorem mem_releasesOf_inOrder {m : Text × Json} :
    m ∈ releasesOf ledger.toJson.inOrder ↔
      ∃ e ∈ ledger.entries, ((member e).1, (member e).2.inOrder) = m := by
  have found : Members.get? "releases"
      (Json.Style.inKeyOrder (Json.membersInOrder ledger.parts)) =
        some (Json.obj (ledger.ascending.map member)).inOrder :=
    Json.get?_of_mem ledger.nodup_keys_parts (.tail _ (.tail _ (.head _)))
  have same : releasesOf ledger.toJson.inOrder =
      ledger.inTextOrder.map fun e => ((member e).1, (member e).2.inOrder) := by
    show releasesOf (.obj (Json.Style.inKeyOrder (Json.membersInOrder ledger.parts))) = _
    rw [releases_inOrder] at found
    rw [releasesOf, found]
  rw [same, List.mem_map]
  simp only [ledger.perm_inTextOrder.mem_iff]

/-- The key of an entry denotes no other number. -/
theorem numericId_of_member {e : LedgerEntry} {record : Json}
    (h : entryOf (member e).1 record = .ok entry) : entry.numericId = e.numericId := by
  obtain ⟨digits, number, _⟩ := entryOf_eq_ok h
  show _ = e.numericId
  change (Text.ofInt e.numericId).isDigits = true at digits
  change Decimal.whole (Text.ofInt e.numericId) = _ at number
  cases id : e.numericId with
  | ofNat k =>
      rw [id] at number
      exact Decimal.eq_of_whole_ofNat number
  | negSucc k =>
      -- a minus sign is no digit
      rw [id, Text.isDigits, Bool.and_eq_true, List.all_eq_true] at digits
      exact absurd (digits.2 ('-' : CodePoint) List.mem_cons_self) (by decide)

/-- When a ledger is saved its file holds the ledger's value, whatever its entries are. -/
theorem ofFile_of_save (sound : w.files.IsSound)
    (distinct : (ledger.entries.map LedgerEntry.numericId).Nodup)
    (h : (ledger.save p).outcome w = (.ok (), w')) :
    ∃ content mode, w'.files.lookup p = .ok (some (.file content mode)) ∧
      Json.ofFile content = .ok ledger.toJson.inOrder := by
  rcases save_ends h with ⟨⟨e, failed⟩, _⟩ | ⟨_, stored⟩
  · exact absurd failed (by simp)
  obtain ⟨bytes, written, there⟩ := storeJson_gives sound stored
  obtain ⟨mode, file⟩ := there.file
  exact ⟨bytes ++ [0x0A], mode, by rw [lookup_of_resolve there.reached, file],
    Json.ofFile_storedBytes (storable_toJson distinct _) written⟩

/-- A record that succeeds leaves a file with the entries of all other numbers as records, and with
no others. -/
theorem hasRecord_of_record {prior : Option LedgerEntry} (sound : w.files.IsSound)
    (found : loaded p w.files = .ok ledger) (h : (record p d).outcome w = (.ok prior, w')) :
    ∃ content mode value, w'.files.lookup p = .ok (some (.file content mode)) ∧
      Json.ofFile content = .ok value ∧
      ∀ e, e.numericId ≠ d.numericId → (HasRecord value e ↔ e ∈ ledger.entries) := by
  obtain ⟨other, also, _, saving, _⟩ := record_of_ok h
  obtain rfl := Except.ok.inj (found.symm.trans also)
  have form := isSound_of_loaded found
  obtain ⟨content, mode, there, read⟩ :=
    ofFile_of_save sound (nodup_numericIds_put form.distinct _) saving
  refine ⟨content, mode, _, there, read, fun e other => ⟨?_, fun before => ?_⟩⟩
  · rintro ⟨m, inside, held⟩
    obtain ⟨e', member', rfl⟩ := mem_releasesOf_inOrder.mp inside
    have id : e.numericId = e'.numericId := numericId_of_member held
    rcases mem_put member' with rfl | before
    · exact absurd id other
    · have own := entryOf_member (form.entries e' before) (isLong_of_loaded found e' before)
      exact Except.ok.inj (held.symm.trans own) ▸ before
  · refine ⟨_, mem_releasesOf_inOrder.mpr ⟨e, mem_put_of_ne before other, rfl⟩, ?_⟩
    exact entryOf_member (form.entries e before) (isLong_of_loaded found e before)

/-- What becomes of the records of a ledger file that is loaded. Each record is an entry, and of the
entries of a number the ledger has the last, so that a record is lost only to a later one whose key
denotes the same number. All are in the ledger exactly if the keys, which are different texts,
denote different numbers, as they do if they are written as numbers are. A release that is recorded
leaves the entries of all other numbers in the file and in what is loaded from it. -/
theorem load_keeps_last {content : Bytes} {mode : Nat} (sound : w.files.IsSound)
    (file : w.files.lookup p = .ok (some (.file content mode)))
    (loads : (load p).outcome w = (.ok ledger, w')) :
    ∃ value records, Json.ofFile content = .ok value ∧
      entriesOf (releasesOf value) = .ok records ∧ (releasesOf value).keys.Nodup ∧
      (∀ n, ledger.find? n = records.reverse.find? fun e => e.numericId == n) ∧
      (ledger.entries = records ↔ ((releasesOf value).keys.map Decimal.whole).Nodup) ∧
      ((∀ key ∈ (releasesOf value).keys, ∃ n, key = Text.ofNat n) → ledger.entries = records) ∧
      ∀ d prior w'', (record p d).outcome w = (.ok prior, w'') →
        (∃ content' mode' value', w''.files.lookup p = .ok (some (.file content' mode')) ∧
          Json.ofFile content' = .ok value' ∧
          ∀ e, e.numericId ≠ d.numericId → (HasRecord value' e ↔ e ∈ ledger.entries)) ∧
        ∀ draft : Draft, draft.check = .ok d → ∃ read, loaded p w''.files = .ok read ∧
          ∀ n, n ≠ d.numericId → read.find? n = ledger.find? n := by
  have found : loaded p w.files = .ok ledger := by
    rw [outcome_load] at loads
    exact (Prod.mk.inj loads).1
  have read : (Json.ofFile content >>= fun value =>
      (ofJson value).mapError fun e => .badValue e.message) = .ok ledger := by
    rw [loaded, file] at found
    exact found
  obtain ⟨value, parsed, held⟩ := bind_eq_ok.mp read
  obtain ⟨records, entries, rfl⟩ := exists_records (mapError_eq_ok.mp held)
  have distinct := (isSound_of_loaded found).distinct
  have all : (records.foldl put .empty).entries = records ↔
      ((releasesOf value).keys.map Decimal.whole).Nodup := by
    rw [← nodup_numericIds_iff entries]
    exact ⟨fun same => same ▸ distinct, fun once => entries_foldl_put once⟩
  have once := nodup_keys_releasesOf parsed
  refine ⟨value, records, parsed, entries, once, fun n => ?_, all, fun written => ?_, ?_⟩
  · rw [find?_foldl_put]
    exact Option.or_none
  · exact all.mpr (nodup_whole_of_written entries once written)
  · intro d prior w'' recorded
    refine ⟨hasRecord_of_record sound found recorded, fun draft checked => ?_⟩
    obtain ⟨_, before, after, also, _, _, again, same⟩ := record_succeeds sound checked recorded
    obtain rfl := Except.ok.inj (found.symm.trans also)
    exact ⟨after, again, fun n other => by rw [same, if_neg (Ne.symm other)]⟩

end Ledger

namespace Sample

open Ledger

/-- A workspace with a ledger file of some bytes. -/
def keeping (bytes : Bytes) : Workspace where
  files := {
    home := ["p"]
    nodes := [(["p"], .directory), (["p", "releases.json"], .file bytes defaultMode)] }
  log := []
  mark := "1"

theorem isSound_keeping (bytes : Bytes) : (keeping bytes).files.IsSound := by
  refine isSound_of_nodes (by rfl) ?_
  exact List.forall_mem_cons.mpr ⟨rfl, List.forall_mem_singleton.mpr rfl⟩

/-- A ledger file with a record of each of two packages. -/
def twoPackages : Bytes :=
  ("\x7b\"format\": \"simpack-ledger\", \"version\": 0, \"releases\": \x7b" ++
    "\"7\": \x7b\"name\": \"demo\", \"version\": \"1.0.0\"\x7d, " ++
    "\"8\": \x7b\"name\": \"besides\", \"version\": \"1.0.0\"\x7d\x7d\x7d").toUTF8.toList

set_option maxRecDepth 100000 in
/-- Both records are loaded, and the next release of one package leaves the other's in the file. -/
theorem load_keeps_last_of_two :
    ∃ ledger w₁, (load releases).outcome (keeping twoPackages) = (.ok ledger, w₁) ∧
      ledger.entries = [entryFor (release "1.0.0"), entryFor (besides "1.0.0")] ∧
      ∃ prior w₂ content mode value,
        (Ledger.record releases (besides "2.0.0")).outcome (keeping twoPackages) =
          (.ok prior, w₂) ∧
        w₂.files.lookup releases = .ok (some (.file content mode)) ∧
        Json.ofFile content = .ok value ∧ HasRecord value (entryFor (release "1.0.0")) := by
  have loading : (load releases).gives (keeping twoPackages) (fun ledger _ => decide
      (ledger.entries = [entryFor (release "1.0.0"), entryFor (besides "1.0.0")])) = true := by
    decide +kernel
  obtain ⟨ledger, w₁, loads, same⟩ := exists_of_gives loading
  have run : (Ledger.record releases (besides "2.0.0")).gives (keeping twoPackages)
      (fun _ _ => true) = true := by decide +kernel
  obtain ⟨prior, w₂, recorded, _⟩ := exists_of_gives run
  obtain ⟨_, _, _, _, _, _, _, _, keeps⟩ :=
    load_keeps_last (isSound_keeping twoPackages) (by rfl) loads
  obtain ⟨⟨content, mode, value, there, parsed, others⟩, _⟩ := keeps _ _ _ recorded
  have entries := of_decide_eq_true same
  have first : entryFor (release "1.0.0") ∈ ledger.entries := entries ▸ List.mem_cons_self
  exact ⟨ledger, w₁, loads, entries, prior, w₂, content, mode, value, recorded, there, parsed,
    (others _ (by decide)).mpr first⟩

/-- A ledger file with two records under keys that denote one number. -/
def paddedKey : Bytes :=
  ("\x7b\"format\": \"simpack-ledger\", \"version\": 0, \"releases\": \x7b" ++
    "\"1\": \x7b\"name\": \"a\", \"version\": \"1.0.0\"\x7d, " ++
    "\"01\": \x7b\"name\": \"b\", \"version\": \"1.0.0\"\x7d\x7d\x7d").toUTF8.toList

set_option maxRecDepth 100000 in
/-- The file is loaded, though its two keys denote one number; one of its records is not in what is
loaded, and it is gone from the file when another package is released. -/
theorem paddedKey_loses_record :
    ∃ ledger w₁ value, (load releases).outcome (keeping paddedKey) = (.ok ledger, w₁) ∧
      Json.ofFile paddedKey = .ok value ∧ (releasesOf value).keys = ["1", "01"] ∧
      Decimal.whole "1" = Decimal.whole "01" ∧
      HasRecord value ⟨1, "a", "1.0.0", ""⟩ ∧ ⟨1, "a", "1.0.0", ""⟩ ∉ ledger.entries ∧
      ∃ prior w₂ content mode value',
        (Ledger.record releases (release "1.0.0")).outcome (keeping paddedKey) = (.ok prior, w₂) ∧
        w₂.files.lookup releases = .ok (some (.file content mode)) ∧
        Json.ofFile content = .ok value' ∧ ¬ HasRecord value' ⟨1, "a", "1.0.0", ""⟩ := by
  have loading : (load releases).gives (keeping paddedKey)
      (fun ledger _ => decide (⟨1, "a", "1.0.0", ""⟩ ∉ ledger.entries)) = true := by decide +kernel
  obtain ⟨ledger, w₁, loads, lost⟩ := exists_of_gives loading
  have reading : passes (Json.ofFile paddedKey) (fun value =>
      decide ((releasesOf value).keys = ["1", "01"]) &&
        passes (entriesOf (releasesOf value)) fun records =>
          decide (⟨1, "a", "1.0.0", ""⟩ ∈ records)) = true := by decide +kernel
  obtain ⟨value, parsed, both⟩ := exists_of_passes reading
  obtain ⟨keys, held⟩ := Bool.and_eq_true_iff.mp both
  obtain ⟨records, entries, member⟩ := exists_of_passes held
  have run : (Ledger.record releases (release "1.0.0")).gives (keeping paddedKey)
      (fun _ _ => true) = true := by decide +kernel
  obtain ⟨prior, w₂, recorded, _⟩ := exists_of_gives run
  have found : loaded releases (keeping paddedKey).files = .ok ledger := by
    rw [outcome_load] at loads
    exact (Prod.mk.inj loads).1
  obtain ⟨content, mode, value', there, parsed', others⟩ :=
    hasRecord_of_record (isSound_keeping paddedKey) found recorded
  have gone := of_decide_eq_true lost
  exact ⟨ledger, w₁, value, loads, parsed, of_decide_eq_true keys, by decide +kernel,
    exists_of_mapM entries _ (of_decide_eq_true member), gone, prior, w₂, content, mode, value',
    recorded, there, parsed', fun still => gone ((others _ (by decide)).mp still)⟩

end Sample

end ModulePackaging
