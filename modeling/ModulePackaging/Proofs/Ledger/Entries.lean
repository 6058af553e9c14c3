import Mathlib.Data.List.Nodup
import ModulePackaging.Ledger
import ModulePackaging.Proofs.Descriptors

/-!
# Ledgers as maps

A ledger maps numeric ids to entries. Putting an entry in and taking it out change the map at one
id, so a release that is recorded and taken back leaves the map as it was. The value that a ledger
is stored as gives the same map again, whatever order its entries are in.
-/

namespace ModulePackaging

/-- An entry as a ledger file can have it. -/
structure LedgerEntry.IsSound (entry : LedgerEntry) : Prop where
  id : 0 ≤ entry.numericId
  name : entry.name ≠ []
  version : entry.version ≠ []

/-- An entry whose texts have no surrogates. -/
structure LedgerEntry.IsWritable (entry : LedgerEntry) : Prop where
  name : entry.name.IsEncodable
  version : entry.version.IsEncodable
  buildId : entry.buildId.IsEncodable

namespace Ledger

variable {ledger other : Ledger} {entry : LedgerEntry} {n : Int}

/-- A ledger as a file can have it: each numeric id once. -/
structure IsSound (ledger : Ledger) : Prop where
  distinct : (ledger.entries.map LedgerEntry.numericId).Nodup
  entries : ∀ entry ∈ ledger.entries, entry.IsSound

/-! ## Looking entries up -/

theorem find?_eq_some (h : ledger.find? n = some entry) :
    entry ∈ ledger.entries ∧ entry.numericId = n := by
  unfold find? at h
  refine ⟨List.mem_of_find?_eq_some h, ?_⟩
  have found := List.find?_some h
  simpa using found

/-- In a sound ledger an entry is found under its numeric id. -/
theorem IsSound.find?_eq_some_iff (sound : ledger.IsSound) :
    ledger.find? n = some entry ↔ entry ∈ ledger.entries ∧ entry.numericId = n := by
  constructor
  · exact find?_eq_some
  · rintro ⟨member, rfl⟩
    cases found : ledger.find? entry.numericId with
    | none =>
        unfold find? at found
        have nothing := List.find?_eq_none.mp found entry member
        simp at nothing
    | some first =>
        obtain ⟨there, same⟩ := find?_eq_some found
        rw [List.inj_on_of_nodup_map sound.distinct there member same]

/-- Ledgers with the same entries are the same map. -/
theorem find?_eq_of_mem_iff (sound : ledger.IsSound) (also : other.IsSound)
    (same : ∀ entry, entry ∈ ledger.entries ↔ entry ∈ other.entries) (n : Int) :
    ledger.find? n = other.find? n := by
  apply Option.ext
  intro entry
  rw [sound.find?_eq_some_iff, also.find?_eq_some_iff, same]

/-- Putting an entry in changes what is found under its numeric id. -/
theorem find?_put (ledger : Ledger) (entry : LedgerEntry) (n : Int) :
    (ledger.put entry).find? n = if entry.numericId = n then some entry else ledger.find? n := by
  -- Replacing keeps every other entry in its place, so only the look-up of the id itself changes.
  have replaced : ∀ l : List LedgerEntry,
      (l.map fun e => if e.numericId == entry.numericId then entry else e).find?
          (fun e => e.numericId == n) =
        if entry.numericId = n then
          if l.any (·.numericId == entry.numericId) then some entry else none
        else l.find? fun e => e.numericId == n := by
    intro l
    induction l with
    | nil => simp
    | cons e rest ih =>
        rw [List.map_cons, List.find?_cons, List.find?_cons, List.any_cons, ih]
        by_cases here : e.numericId = entry.numericId
        · by_cases same : entry.numericId = n
          · simp [here, same]
          · simp [here, same, beq_eq_false_iff_ne.mpr same]
        · by_cases same : entry.numericId = n
          · subst same
            simp [beq_eq_false_iff_ne.mpr here]
          · simp [here, same]
  unfold put
  split
  · rename_i some
    show List.find? _ _ = _
    rw [replaced, some]
    rfl
  · rename_i none
    show List.find? _ _ = _
    rw [List.find?_append]
    by_cases same : entry.numericId = n
    · subst same
      have nothing : ledger.entries.find? (fun e => e.numericId == entry.numericId) = Option.none := by
        rw [List.find?_eq_none]
        intro e member here
        exact none (List.any_eq_true.mpr ⟨e, member, here⟩)
      simp [nothing]
    · simp [same, find?]

theorem find?_drop (ledger : Ledger) (m n : Int) :
    (ledger.drop m).find? n = if m = n then none else ledger.find? n := by
  unfold drop find?
  rw [List.find?_filter]
  by_cases same : m = n
  · rw [if_pos same, List.find?_eq_none]
    intro e _ here
    simp [same] at here
  · rw [if_neg same]
    congr 1
    funext e
    by_cases here : e.numericId = n
    · simp [here, Ne.symm same]
    · simp [here]

/-- Dropping a new entry leaves the map as it was before the entry was put in. -/
theorem find?_drop_of_put (new : ledger.find? entry.numericId = none)
    (same : ∀ n, other.find? n = (ledger.put entry).find? n) (n : Int) :
    (other.drop entry.numericId).find? n = ledger.find? n := by
  rw [find?_drop, same, find?_put]
  split
  · rename_i here
    rw [← here, new]
  · rfl

/-- Putting an earlier entry back leaves the map as it was before another took its place. -/
theorem find?_put_of_put {prior : LedgerEntry}
    (before : ledger.find? entry.numericId = some prior)
    (same : ∀ n, other.find? n = (ledger.put entry).find? n) (n : Int) :
    (other.put prior).find? n = ledger.find? n := by
  rw [find?_put, same, find?_put, (find?_eq_some before).2]
  split
  · rename_i here
    rw [← here, before]
  · rfl

/-! ## Sound ledgers -/

theorem isSound_empty : empty.IsSound := ⟨List.nodup_nil, List.forall_mem_nil _⟩

theorem mem_put {e : LedgerEntry} (h : e ∈ (ledger.put entry).entries) :
    e = entry ∨ e ∈ ledger.entries := by
  unfold put at h
  split at h
  · obtain ⟨old, member, rfl⟩ := List.mem_map.mp h
    split
    · exact .inl rfl
    · exact .inr member
  · rcases List.mem_append.mp h with member | member
    · exact .inr member
    · exact .inl (List.mem_singleton.mp member)

/-- What is put in is there. -/
theorem mem_put_self (ledger : Ledger) (entry : LedgerEntry) :
    entry ∈ (ledger.put entry).entries := by
  have found := find?_put ledger entry entry.numericId
  rw [if_pos rfl] at found
  exact (find?_eq_some found).1

/-- An entry of another numeric id stays when one is put in. -/
theorem mem_put_of_ne {e : LedgerEntry} (member : e ∈ ledger.entries)
    (other : e.numericId ≠ entry.numericId) : e ∈ (ledger.put entry).entries := by
  unfold put
  split
  · refine List.mem_map.mpr ⟨e, member, ?_⟩
    rw [if_neg (by simpa using other)]
  · exact List.mem_append_left _ member

/-- Putting an entry in keeps the numeric ids different. -/
theorem nodup_numericIds_put (distinct : (ledger.entries.map LedgerEntry.numericId).Nodup)
    (entry : LedgerEntry) : ((ledger.put entry).entries.map LedgerEntry.numericId).Nodup := by
  unfold put
  split
  · have ids : (ledger.entries.map fun e =>
        if e.numericId == entry.numericId then entry else e).map LedgerEntry.numericId =
          ledger.entries.map LedgerEntry.numericId := by
      rw [List.map_map]
      apply List.map_congr_left
      intro e _
      by_cases here : e.numericId = entry.numericId
      · simp [here]
      · simp [here]
    rw [ids]
    exact distinct
  · rename_i new
    rw [List.map_append, List.nodup_append]
    refine ⟨distinct, List.nodup_singleton _, ?_⟩
    intro a inside b last
    obtain ⟨e, member, rfl⟩ := List.mem_map.mp inside
    rw [List.map_singleton, List.mem_singleton] at last
    rintro same
    exact new (List.any_eq_true.mpr ⟨e, member, by simp [same, last]⟩)

theorem IsSound.put (sound : ledger.IsSound) (also : entry.IsSound) :
    (ledger.put entry).IsSound := by
  refine ⟨nodup_numericIds_put sound.distinct entry, fun e member => ?_⟩
  rcases mem_put member with rfl | old
  · exact also
  · exact sound.entries e old

theorem IsSound.drop (sound : ledger.IsSound) (n : Int) : (ledger.drop n).IsSound :=
  ⟨sound.distinct.sublist (List.filter_sublist.map _),
    fun e member => sound.entries e (List.mem_filter.mp member).1⟩

/-! ## Reading a ledger -/

/-- A number that is made of digits is not negative. -/
theorem nonneg_of_whole {t : Text} (digits : ∀ c ∈ t, c.isDigit = true)
    (h : Decimal.whole t = .ok n) : 0 ≤ n := by
  have sign : ∀ u : Text, (∀ c ∈ u, c.isDigit = true) → (Decimal.takeSign u).1 = false := by
    intro u all
    cases u with
    | nil => rfl
    | cons c rest =>
        rw [Decimal.takeSign]
        split
        · rename_i minus
          have digit := all c List.mem_cons_self
          rw [minus] at digit
          exact absurd digit (by decide)
        · split
          · rfl
          · rfl
  have plus := sign (t.dropWhile Decimal.isNumberBlank) fun c member =>
    digits c ((List.dropWhile_sublist _).subset member)
  unfold Decimal.whole at h
  simp only [plus] at h
  split at h
  · exact absurd h (by simp)
  · exact absurd h (by simp)
  · split at h
    · exact absurd h (by simp)
    · split at h
      · cases h
        simp
      · exact absurd h (by simp)

theorem textAt?_eq_some {key t : Text} {members : Members} (h : textAt? key members = some t) :
    t ≠ [] := by
  unfold textAt? at h
  split at h
  · split at h
    · exact absurd h (by simp)
    · rename_i some
      cases h
      simpa using some
  · exact absurd h (by simp)

/-- What a record that is read as an entry has: a key of digits that denotes the number of the entry,
a name and a version. -/
theorem entryOf_eq_ok {key : Text} {value : Json} (h : entryOf key value = .ok entry) :
    key.isDigits = true ∧ Decimal.whole key = .ok entry.numericId ∧ entry.name ≠ [] ∧
      entry.version ≠ [] := by
  unfold entryOf at h
  obtain ⟨digits, h⟩ := guard_eq_ok.mp h
  split at h
  · split at h
    · exact absurd h throw_ne_ok
    · rename_i name named
      split at h
      · exact absurd h throw_ne_ok
      · rename_i version versioned
        obtain ⟨n, number, h⟩ := bind_eq_ok.mp h
        obtain rfl := Except.ok.inj h
        exact ⟨by simpa using digits, mapError_eq_ok.mp number, textAt?_eq_some named,
          textAt?_eq_some versioned⟩
  · exact absurd h throw_ne_ok

theorem entryOf_gives {key : Text} {value : Json} (h : entryOf key value = .ok entry) :
    entry.IsSound := by
  obtain ⟨digits, number, name, version⟩ := entryOf_eq_ok h
  rw [Text.isDigits, Bool.and_eq_true, List.all_eq_true] at digits
  exact ⟨nonneg_of_whole digits.2 number, name, version⟩

/-- A number that an entry was read under can be written. -/
theorem isLong_of_entryOf {key : Text} {value : Json} (h : entryOf key value = .ok entry) :
    Decimal.isLong entry.numericId = false :=
  Decimal.isLong_of_whole (entryOf_eq_ok h).2.1

/-- The entries that records are read as, one for each. -/
def entriesOf (releases : Members) : Except LedgerError (List LedgerEntry) :=
  releases.mapM fun m => entryOf m.1 m.2

/-- Putting records into a ledger reads each of them and puts in its entry. -/
theorem putAll_eq (ledger : Ledger) (releases : Members) :
    putAll ledger releases = (entriesOf releases).map fun entries => entries.foldl put ledger := by
  unfold entriesOf
  induction releases generalizing ledger with
  | nil => rfl
  | cons m rest ih =>
      rw [putAll, List.mapM_cons]
      cases entryOf m.1 m.2 with
      | error e => rfl
      | ok entry =>
          show putAll (ledger.put entry) rest = _
          rw [ih]
          cases rest.mapM fun m => entryOf m.1 m.2 <;> rfl

/-- An entry of a ledger into which releases were put was there before, or one of them holds it. -/
theorem mem_putAll {members : Members} (h : putAll ledger members = .ok other) :
    ∀ e ∈ other.entries, e ∈ ledger.entries ∨ ∃ key value, entryOf key value = .ok e := by
  induction members generalizing ledger with
  | nil =>
      obtain rfl := Except.ok.inj h
      exact fun e member => .inl member
  | cons m rest ih =>
      obtain ⟨key, value⟩ := m
      rw [putAll] at h
      obtain ⟨entry, first, h⟩ := bind_eq_ok.mp h
      intro e member
      rcases ih h e member with before | held
      · rcases mem_put before with rfl | before
        · exact .inr ⟨key, value, first⟩
        · exact .inl before
      · exact .inr held

theorem putAll_gives {members : Members} (sound : ledger.IsSound)
    (h : putAll ledger members = .ok other) : other.IsSound := by
  induction members generalizing ledger with
  | nil =>
      obtain rfl := Except.ok.inj h
      exact sound
  | cons m rest ih =>
      obtain ⟨key, value⟩ := m
      rw [putAll] at h
      obtain ⟨entry, first, h⟩ := bind_eq_ok.mp h
      exact ih (sound.put (entryOf_gives first)) h

/-- The records in the value of a ledger file, under their keys. -/
def releasesOf : Json → Members
  | .obj members =>
    match Members.get? "releases" members with
    | some (.obj releases) => releases
    | _ => []
  | _ => []

/-- A ledger that was read has the entries of the records, put in one after the other. -/
theorem putAll_of_ofJson {value : Json} (h : ofJson value = .ok ledger) :
    putAll empty (releasesOf value) = .ok ledger := by
  unfold ofJson at h
  split at h
  · simp only at h
    split at h
    · exact absurd h (by simp)
    · split at h
      · rename_i found
        rwa [releasesOf, found]
      · exact absurd h (by simp)
  · exact absurd h (by simp)

/-- A ledger that was read is sound. -/
theorem isSound_of_ofJson {value : Json} (h : ofJson value = .ok ledger) : ledger.IsSound :=
  putAll_gives isSound_empty (putAll_of_ofJson h)

/-- A ledger that was read has no long numeric id. -/
theorem isLong_of_ofJson {value : Json} (h : ofJson value = .ok ledger) :
    ∀ e ∈ ledger.entries, Decimal.isLong e.numericId = false := by
  intro e member
  rcases mem_putAll (putAll_of_ofJson h) e member with before | ⟨_, _, held⟩
  · exact absurd before List.not_mem_nil
  · exact isLong_of_entryOf held

/-! ## Reading back what was stored -/

/-- What an entry is stored as, under its numeric id. -/
def fields (entry : LedgerEntry) : Members := [
  ("name", .str entry.name), ("version", .str entry.version), ("build_id", .str entry.buildId)]

theorem nodup_keys_fields (entry : LedgerEntry) : ((fields entry).map Prod.fst).Nodup := by
  show (["name", "version", "build_id"] : List Text).Nodup
  decide

theorem get?_fields (entry : LedgerEntry) {key t : Text} (h : (key, Json.str t) ∈ fields entry) :
    Members.get? key (Json.Style.inKeyOrder (Json.membersInOrder (fields entry))) =
      some (.str t) :=
  Json.get?_of_mem (nodup_keys_fields entry) h

/-- An entry is read back from its member. -/
theorem entryOf_member (sound : entry.IsSound) (short : Decimal.isLong entry.numericId = false) :
    entryOf (member entry).1 (member entry).2.inOrder = .ok entry := by
  have name := get?_fields entry (.head _)
  have version := get?_fields entry (.tail _ (.head _))
  have buildId := get?_fields entry (.tail _ (.tail _ (.head _)))
  show entryOf (Text.ofInt entry.numericId)
    (.obj (Json.Style.inKeyOrder (Json.membersInOrder (fields entry)))) = _
  generalize Json.Style.inKeyOrder (Json.membersInOrder (fields entry)) = found at *
  obtain ⟨k, form⟩ := Int.eq_ofNat_of_zero_le sound.id
  rw [form] at short
  have digits : (Text.ofInt k).isDigits = true := by
    show (Text.ofNat k).isDigits = true
    rw [Text.isDigits, Bool.and_eq_true, List.all_eq_true]
    refine ⟨by simpa using Text.ofNat_ne_nil k, fun c inside => ?_⟩
    exact CodePoint.isDigit_of_isAsciiDigit (Text.isAsciiDigit_of_mem_ofNat k c inside)
  have number : Decimal.whole (Text.ofInt k) = .ok (k : Int) := Decimal.whole_ofNat short
  have someName : entry.name.isEmpty = false := by simpa using sound.name
  have someVersion : entry.version.isEmpty = false := by simpa using sound.version
  unfold entryOf textAt?
  rw [form, digits]
  simp only [Bool.not_true, Bool.false_eq_true, if_false, name, version, buildId, someName,
    someVersion, number, mapError_ok, bind, Except.bind, pure, Except.pure, Option.getD_some,
    Json.textOrEmpty_str]
  rw [← form]

/-- Entries of new and different numeric ids are put in behind the others. -/
theorem entries_foldl_put {entries : List LedgerEntry}
    (distinct : ((ledger.entries ++ entries).map LedgerEntry.numericId).Nodup) :
    (entries.foldl put ledger).entries = ledger.entries ++ entries := by
  induction entries generalizing ledger with
  | nil => exact (List.append_nil _).symm
  | cons e rest ih =>
      have new : ledger.entries.any (·.numericId == e.numericId) = false := by
        rw [List.any_eq_false]
        intro old inside same
        rw [List.map_append, List.nodup_append] at distinct
        exact distinct.2.2 _ (List.mem_map_of_mem inside) _
          (List.mem_map_of_mem List.mem_cons_self) (by simpa using same)
      have put : (ledger.put e).entries = ledger.entries ++ [e] := by
        unfold Ledger.put
        rw [new]
        rfl
      have grown : (ledger.put e).entries ++ rest = ledger.entries ++ e :: rest := by
        rw [put, List.append_assoc, List.singleton_append]
      rw [List.foldl_cons, ih (grown.symm ▸ distinct), grown]

/-- The members of entries with new numeric ids are put in behind the others. -/
theorem putAll_members {entries : List LedgerEntry}
    (read : ∀ e ∈ entries, entryOf (member e).1 (member e).2.inOrder = .ok e)
    (distinct : ((ledger.entries ++ entries).map LedgerEntry.numericId).Nodup) :
    putAll ledger (entries.map fun e => ((member e).1, (member e).2.inOrder)) =
      .ok ⟨ledger.entries ++ entries⟩ := by
  have each : entriesOf (entries.map fun e => ((member e).1, (member e).2.inOrder)) =
      .ok entries := by
    unfold entriesOf
    rw [List.mapM_map]
    exact (mapM_eq_pure read).trans (congrArg Except.ok (List.map_id entries))
  rw [putAll_eq, each, ← entries_foldl_put distinct]
  rfl

/-- The entries in the order in which a file has them: that of their numeric ids as texts. -/
def inTextOrder (ledger : Ledger) : List LedgerEntry :=
  sortedBy (fun a b => decide ((member a).1 ≤ (member b).1)) ledger.ascending

theorem perm_inTextOrder (ledger : Ledger) : ledger.inTextOrder.Perm ledger.entries :=
  (sortedBy_perm _ _).trans (sortedBy_perm _ _)

theorem releases_inOrder (ledger : Ledger) :
    (Json.obj (ledger.ascending.map member)).inOrder =
      .obj (ledger.inTextOrder.map fun e => ((member e).1, (member e).2.inOrder)) := by
  rw [Json.inOrder, Json.membersInOrder_eq, List.map_map]
  exact congrArg Json.obj (sortedBy_map _ _)

/-- What a ledger is stored as. -/
def parts (ledger : Ledger) : Members := [
  ("format", .str "simpack-ledger"), ("version", .int 0),
  ("releases", .obj (ledger.ascending.map member))]

theorem nodup_keys_parts (ledger : Ledger) : (ledger.parts.map Prod.fst).Nodup := by
  show (["format", "version", "releases"] : List Text).Nodup
  decide

/-- The value that a ledger is stored as gives the same map again. -/
theorem ofJson_inOrder (sound : ledger.IsSound)
    (short : ∀ e ∈ ledger.entries, Decimal.isLong e.numericId = false) :
    ∃ read, ofJson ledger.toJson.inOrder = .ok read ∧ ∀ n, read.find? n = ledger.find? n := by
  have same := ledger.perm_inTextOrder
  have distinct : (ledger.inTextOrder.map LedgerEntry.numericId).Nodup :=
    (same.map _).nodup_iff.mpr sound.distinct
  have found : ∀ (key : Text) (v : Json), (key, v) ∈ ledger.parts →
      Members.get? key (Json.Style.inKeyOrder (Json.membersInOrder ledger.parts)) =
        some v.inOrder :=
    fun _ _ => Json.get?_of_mem ledger.nodup_keys_parts
  have format := found _ _ (.head _)
  have version := found _ _ (.tail _ (.head _))
  have releases := found _ _ (.tail _ (.tail _ (.head _)))
  rw [releases_inOrder] at releases
  have read : putAll empty (ledger.inTextOrder.map fun e => ((member e).1, (member e).2.inOrder)) =
      .ok ⟨ledger.inTextOrder⟩ := by
    apply putAll_members
    · intro e inside
      have there := same.mem_iff.mp inside
      exact entryOf_member (sound.entries e there) (short e there)
    · exact distinct
  refine ⟨⟨ledger.inTextOrder⟩, ?_, ?_⟩
  · show ofJson (.obj (Json.Style.inKeyOrder (Json.membersInOrder ledger.parts))) = _
    generalize Json.Style.inKeyOrder (Json.membersInOrder ledger.parts) = members at *
    unfold ofJson
    simp only [format, version, releases]
    exact read
  · apply find?_eq_of_mem_iff _ sound
    · intro e
      exact same.mem_iff
    · exact ⟨distinct, fun e inside => sound.entries e (same.mem_iff.mp inside)⟩

theorem nodup_keys_releases (distinct : (ledger.entries.map LedgerEntry.numericId).Nodup) :
    ((ledger.ascending.map member).map Prod.fst).Nodup := by
  have same : ledger.ascending.Perm ledger.entries := sortedBy_perm _ _
  rw [List.map_map]
  apply List.Nodup.map_on
  · intro a inA b inB keys
    have ids : a.numericId = b.numericId := Text.ofInt_inj keys
    exact List.inj_on_of_nodup_map distinct (same.mem_iff.mp inA) (same.mem_iff.mp inB) ids
  · exact same.nodup_iff.mpr distinct.of_map

theorem storable_toJson (distinct : (ledger.entries.map LedgerEntry.numericId).Nodup)
    (depth : Nat) : Json.Storable (depth + 3) ledger.toJson := by
  apply Json.Storable.obj ledger.nodup_keys_parts
  simp only [parts, List.forall_mem_cons, List.not_mem_nil, false_implies, implies_true, and_true]
  refine ⟨.str _, .int (by decide), .obj (nodup_keys_releases distinct) ?_⟩
  intro m inside
  obtain ⟨e, _, rfl⟩ := List.mem_map.mp inside
  apply Json.Storable.obj (nodup_keys_fields e)
  simp only [fields, List.forall_mem_cons, List.not_mem_nil, false_implies, implies_true, and_true]
  exact ⟨.str _, .str _, .str _⟩

/-- A ledger has stored bytes exactly when each entry can be written. -/
theorem exists_storedBytes_iff :
    (∃ bytes, ledger.toJson.storedBytes = .ok bytes) ↔ ∀ e ∈ ledger.entries, e.IsWritable := by
  have same : ledger.ascending.Perm ledger.entries := sortedBy_perm _ _
  have short : ledger.toJson.holdsLong = false := by
    have zero : Decimal.isLong 0 = false := by decide
    simp [toJson, member, List.any_map, Function.comp_def, zero]
  have encodable : ledger.toJson.canonicalText.IsEncodable ↔
      ∀ e ∈ ledger.entries, e.IsWritable := by
    have each : ∀ e : LedgerEntry, ((member e).1.IsEncodable ∧
        (Json.Style.canonical.write 2 (member e).2).IsEncodable) ↔ e.IsWritable := by
      intro e
      show (Text.ofInt e.numericId).IsEncodable ∧
        (Json.Style.canonical.write 2 (.obj (fields e))).IsEncodable ↔ _
      rw [Json.Style.isEncodable_write_obj]
      simp only [fields, List.forall_mem_cons, Text.isEncodable_ofString, Text.isEncodable_ofInt,
        Json.Style.isEncodable_write_str, List.not_mem_nil, false_implies, implies_true, true_and,
        and_true]
      constructor
      · rintro ⟨name, version, buildId⟩
        exact ⟨name, version, buildId⟩
      · intro writable
        exact ⟨writable.name, writable.version, writable.buildId⟩
    show (Json.Style.canonical.write 0 (.obj ledger.parts)).IsEncodable ↔ _
    rw [Json.Style.isEncodable_write_obj]
    simp only [parts, List.forall_mem_cons, Text.isEncodable_ofString,
      Json.Style.isEncodable_write_str, Json.Style.isEncodable_write_int, List.not_mem_nil,
      false_implies, implies_true, true_and, and_true]
    rw [Json.Style.isEncodable_write_obj, List.forall_mem_map]
    simp only [each, same.mem_iff]
  constructor
  · rintro ⟨bytes, stored⟩
    exact encodable.mp (Utf8.encode_eq_ok.mp (Json.storedBytes_eq_ok.mp stored).2).1
  · intro writable
    exact ⟨_, Json.storedBytes_eq_ok.mpr
      ⟨short, Utf8.encode_of_isEncodable (encodable.mpr writable)⟩⟩

/-- What a release puts into a ledger. -/
theorem isSound_entryFor {d : Descriptor} {draft : Draft} (checked : draft.check = .ok d) :
    (entryFor d).IsSound := by
  have form := (Draft.check_eq_ok checked).2
  refine ⟨?_, ?_, ?_⟩
  · exact Int.le_of_lt form.numericId
  · intro none
    have name := form.name
    rw [show d.name = [] from none] at name
    exact absurd name (by decide)
  · intro none
    obtain ⟨v, parsed⟩ := form.version
    have nothing : Version.parse [] = .error (.malformed []) := by rfl
    rw [show d.version = [] from none, nothing] at parsed
    exact absurd parsed (by simp)

end Ledger

end ModulePackaging
