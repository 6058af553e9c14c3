import ModulePackaging.Proofs.Ledger.Undoing

/-!
# Records that are undone behind others

Undoing a record undoes just this record. Whatever is recorded and taken back for other numeric ids
in between is answered as it would be without the record, and when the record is undone the ledger
is the map that it would be without it. The two runs are compared step by step: the two ledgers
differ at one id only, which none of the calls in between has to do with.
-/

namespace ModulePackaging

open Files Files.Tree Action

/-! ## What a release puts in can be written -/

namespace CodePoint

variable {c : CodePoint}

theorem isSurrogate_of_isBlank (h : c.isBlank = true) : c.isSurrogate = false := by
  have apart : (blanks.all fun r => r.last < 0xD800 || 0xDFFF < r.first) = true := by decide
  rw [isBlank, isIn, List.any_eq_true] at h
  obtain ⟨r, blank, inside⟩ := h
  have far := List.all_eq_true.mp apart r blank
  simp only [isSurrogate, Bool.or_eq_true, Bool.and_eq_true, Bool.and_eq_false_iff,
    decide_eq_true_eq, decide_eq_false_iff_not] at far inside ⊢
  omega

theorem isSurrogate_of_isDecimal (h : c.isDecimal = true) : c.isSurrogate = false := by
  have apart : (zeros.all fun z => z + 9 < 0xD800 || 0xDFFF < z) = true := by decide
  obtain ⟨z, member, low, high⟩ := exists_zero_of_isDecimal h
  have far := List.all_eq_true.mp apart z member
  simp only [isSurrogate, Bool.or_eq_true, Bool.and_eq_false_iff, decide_eq_true_eq,
    decide_eq_false_iff_not] at far ⊢
  omega

end CodePoint

/-- A text with a version in it can be written, whatever script its digits are of. -/
theorem Version.isEncodable_of_parse {t : Text} {v : Version} (h : parse t = .ok v) :
    t.IsEncodable := by
  have low {c : CodePoint} (ascii : c.val < 0x80) : c.isSurrogate = false :=
    Text.isEncodable_of_ascii (List.forall_mem_singleton.mpr ascii) c List.mem_cons_self
  intro c member
  rcases (form_of_parse h).2 c member with blank | rfl | rfl | decimal | sign
  · exact CodePoint.isSurrogate_of_isBlank blank
  · exact low (by decide)
  · exact low (by decide)
  · exact CodePoint.isSurrogate_of_isDecimal decimal
  · exact low (range_of_isIdentifierPoint sign).2

theorem isEncodable_of_isPackageName {t : Text} (h : isPackageName t = true) : t.IsEncodable := by
  refine Text.isEncodable_of_ascii fun c member => ?_
  have point := isNamePoint_of_mem h c member
  simp only [CodePoint.isAsciiLower, CodePoint.isAsciiDigit, Bool.or_eq_true, Bool.and_eq_true,
    decide_eq_true_eq] at point
  rcases point with ((range | range) | rfl) | rfl
  · omega
  · omega
  · decide
  · decide

theorem isEncodable_of_isBuildId {t : Text} (h : isBuildId t = true) : t.IsEncodable := by
  refine Text.isEncodable_of_ascii fun c member => ?_
  have point := List.all_eq_true.mp h c member
  simp only [CodePoint.isAsciiLetter, CodePoint.isAsciiUpper, CodePoint.isAsciiLower,
    CodePoint.isAsciiDigit, Bool.or_eq_true, Bool.and_eq_true, decide_eq_true_eq] at point
  rcases point with (((((range | range) | range) | rfl) | rfl) | rfl) | rfl
  · omega
  · omega
  · omega
  · decide
  · decide
  · decide
  · decide

/-- An entry that can stand in a ledger file. -/
structure LedgerEntry.IsStorable (entry : LedgerEntry) : Prop where
  sound : entry.IsSound
  short : Decimal.isLong entry.numericId = false
  writable : entry.IsWritable

namespace Ledger

variable {ledger other : Ledger} {p : Path} {w w' : Workspace} {d x : Descriptor} {draft : Draft}

/-- The entry of a release can be written. -/
theorem isWritable_entryFor (checked : draft.check = .ok x) : (entryFor x).IsWritable := by
  have form := (Draft.check_eq_ok checked).2
  obtain ⟨v, parsed⟩ := form.version
  exact ⟨isEncodable_of_isPackageName form.name, Version.isEncodable_of_parse parsed,
    isEncodable_of_isBuildId form.buildId⟩

/-! ## Open ledger files -/

/-- A ledger file that nothing keeps from being saved: its entries can stand in a file, and there is
room for every such ledger. -/
structure IsOpen (p : Path) (w : Workspace) (ledger : Ledger) : Prop where
  files : w.files.IsSound
  found : loaded p w.files = .ok ledger
  storable : ∀ e ∈ ledger.entries, e.IsStorable
  room : ∀ other : Ledger, (∀ e ∈ other.entries, e.IsStorable) →
    ∃ w', (other.save p).outcome w = (.ok (), w')

/-- A ledger file with writable entries in which some release was recorded is open. -/
theorem IsOpen.of_recorded {prior : Option LedgerEntry} (files : w.files.IsSound)
    (found : loaded p w.files = .ok ledger) (writable : ∀ e ∈ ledger.entries, e.IsWritable)
    (recorded : (record p d).outcome w = (.ok prior, w')) : IsOpen p w ledger := by
  have sound := isSound_of_loaded found
  refine ⟨files, found, fun e member => ?_, fun other storable => ?_⟩
  · exact ⟨sound.entries e member, isLong_of_loaded found e member, writable e member⟩
  · obtain ⟨_, _, _, saving, _⟩ := record_of_ok recorded
    exact save_instead files saving (fun e member => (storable e member).short)
      fun e member => (storable e member).writable

namespace IsOpen

/-- Into an open file every ledger with entries for it is saved, and the file stays open. -/
theorem save (isOpen : IsOpen p w ledger) (sound : other.IsSound)
    (storable : ∀ e ∈ other.entries, e.IsStorable) :
    ∃ w' read, (other.save p).outcome w = (.ok (), w') ∧ IsOpen p w' read ∧
      ∀ n, read.find? n = other.find? n := by
  obtain ⟨w', saved⟩ := isOpen.room other storable
  obtain ⟨_, _, ⟨content, there⟩, read, found, same⟩ := save_gives isOpen.files sound saved
  have files := isSound_of_save isOpen.files saved
  have mark : w'.mark = w.mark := by
    rcases save_ends saved with ⟨_, rfl⟩ | ⟨_, stored⟩
    · rfl
    · exact (Leaves.storeJson_anywhere isOpen.files stored).mark
  refine ⟨w', read, saved, ⟨files, found, fun e member => ?_, fun next storable' => ?_⟩, same⟩
  · -- What is read again is the map that was saved, so it has the entries that were saved.
    have here := (isSound_of_loaded found).find?_eq_some_iff.mpr ⟨member, rfl⟩
    rw [same] at here
    exact storable e (find?_eq_some here).1
  · refine save_again files (mark ▸ there) (fun e member => (storable' e member).short) ?_
    exact fun e member => (storable' e member).writable

end IsOpen

/-- The ledger before a release is put in decides whether it is, and so does the number of digits of
its numeric id. -/
def answerTo (ledger : Ledger) (x : Descriptor) : Except Fault (Option LedgerEntry) := do
  (ledger.check x).mapError ReleaseError.toFault
  if Decimal.isLong x.numericId then throw (.badValue Decimal.longMessage)
  return ledger.find? x.numericId

/-- The ledger after a release was to be put in. -/
def afterRecord (ledger : Ledger) (x : Descriptor) : Ledger :=
  match ledger.answerTo x with
  | .ok _ => ledger.put (entryFor x)
  | .error _ => ledger

/-- What a ledger answers to a release depends only on what it has for the numeric id. -/
theorem answerTo_congr (same : ledger.find? x.numericId = other.find? x.numericId) :
    ledger.answerTo x = other.answerTo x := by
  unfold answerTo check
  rw [same]

/-- An answer that is no refusal is what the ledger has for the numeric id. -/
theorem answerTo_gives {prior : Option LedgerEntry} (h : ledger.answerTo x = .ok prior) :
    prior = ledger.find? x.numericId := by
  obtain ⟨_, _, h⟩ := bind_eq_ok.mp h
  exact (Except.ok.inj (guard_eq_ok.mp h).2).symm

/-- What two ledgers have for an id stays the same if they answer a release alike. -/
theorem find?_afterRecord_congr (answers : ledger.answerTo x = other.answerTo x) {n : Int}
    (same : ledger.find? n = other.find? n) :
    (ledger.afterRecord x).find? n = (other.afterRecord x).find? n := by
  unfold afterRecord
  rw [answers]
  cases other.answerTo x with
  | error e => exact same
  | ok _ => rw [find?_put, find?_put, same]

theorem find?_afterRecord_of_ne {n : Int} (apart : x.numericId ≠ n) :
    (ledger.afterRecord x).find? n = ledger.find? n := by
  unfold afterRecord
  cases ledger.answerTo x with
  | error e => rfl
  | ok _ => rw [find?_put, if_neg (show (entryFor x).numericId ≠ n from apart)]

theorem find?_takenBack_congr {prior : Option LedgerEntry} {n : Int}
    (same : ledger.find? n = other.find? n) :
    (ledger.takenBack x prior).find? n = (other.takenBack x prior).find? n := by
  cases prior with
  | none =>
      show (ledger.drop x.numericId).find? n = (other.drop x.numericId).find? n
      rw [find?_drop, find?_drop, same]
  | some e =>
      show (ledger.put e).find? n = (other.put e).find? n
      rw [find?_put, find?_put, same]

theorem find?_takenBack_of_ne {prior : Option LedgerEntry} {n : Int} (apart : x.numericId ≠ n)
    (also : ∀ e, prior = some e → e.numericId ≠ n) :
    (ledger.takenBack x prior).find? n = ledger.find? n := by
  cases prior with
  | none =>
      show (ledger.drop x.numericId).find? n = _
      rw [find?_drop, if_neg apart]
  | some e =>
      show (ledger.put e).find? n = _
      rw [find?_put, if_neg (also e rfl)]

/-- Recording a release in an open file answers as the ledger does, and leaves the file open. -/
theorem IsOpen.record (isOpen : IsOpen p w ledger) (checked : draft.check = .ok x) :
    ∃ w' after, (Ledger.record p x).outcome w = (ledger.answerTo x, w') ∧ IsOpen p w' after ∧
      ∀ n, after.find? n = (ledger.afterRecord x).find? n := by
  unfold afterRecord answerTo Ledger.record
  rw [outcome_bind, outcome_load, isOpen.found]
  simp only
  rw [outcome_bind, outcome_ofExcept]
  cases allowed : ledger.check x with
  | error e => exact ⟨w, ledger, rfl, isOpen, fun _ => rfl⟩
  | ok _ =>
      simp only [mapError_ok, outcome_bind]
      cases long : Decimal.isLong x.numericId with
      | true =>
          rw [outcome_save_long (mem_put_self ledger (entryFor x)) long]
          exact ⟨w, ledger, rfl, isOpen, fun _ => rfl⟩
      | false =>
          have form : (entryFor x).IsStorable :=
            ⟨isSound_entryFor checked, long, isWritable_entryFor checked⟩
          have sound := (isSound_of_loaded isOpen.found).put form.sound
          obtain ⟨w', read, saved, stillOpen, same⟩ := isOpen.save sound fun e member => by
            rcases mem_put member with rfl | old
            · exact form
            · exact isOpen.storable e old
          rw [saved]
          exact ⟨w', read, rfl, stillOpen, same⟩

/-- Taking a release back in an open file succeeds, and leaves the file open. -/
theorem IsOpen.rollback {prior : Option LedgerEntry} (isOpen : IsOpen p w ledger)
    (storable : ∀ e, prior = some e → e.IsStorable) (x : Descriptor) :
    ∃ w' after, (Ledger.rollback p x prior).outcome w = (.ok (), w') ∧ IsOpen p w' after ∧
      ∀ n, after.find? n = (ledger.takenBack x prior).find? n := by
  rw [outcome_rollback isOpen.found]
  refine isOpen.save ?_ fun e member => ?_
  · exact (isSound_of_loaded isOpen.found).takenBack fun e isPrior => (storable e isPrior).sound
  · exact (mem_takenBack member).elim (storable e) (isOpen.storable e)

/-! ## Calls behind a record -/

/-- A call on a ledger file: a release is recorded, or it is taken back with what an earlier record
gave. -/
inductive Call
  | record (release : Descriptor)
  | rollback (release : Descriptor) (receipt : Nat)

/-- The release that a call is about. -/
def Call.release : Call → Descriptor
  | record x | rollback x _ => x

namespace Channel

/-- What a call answers, and the channel behind it. Nothing is taken back without a receipt. -/
def call (p : Path) (c : Channel) : Call → Except Fault (Option LedgerEntry) × Channel
  | .record x =>
    match (Ledger.record p x).outcome c.workspace with
    | (.ok prior, w) => (.ok prior, ⟨w, c.receipts ++ [⟨x, prior⟩]⟩)
    | (.error e, w) => (.error e, ⟨w, c.receipts⟩)
  | .rollback x k =>
    match c.receipts[k]? with
    | some r =>
      let (result, w) := (Ledger.rollback p x r.prior).outcome c.workspace
      (result.map fun _ => none, ⟨w, c.receipts⟩)
    | none => (.ok none, c)

/-- What calls answer one after the other, and the channel behind them. -/
def calls (p : Path) (c : Channel) : List Call → List (Except Fault (Option LedgerEntry)) × Channel
  | [] => ([], c)
  | next :: rest =>
    let (answer, c') := c.call p next
    let (answers, last) := calls p c' rest
    (answer :: answers, last)

/-- A channel behind a record and the one without it: both ledger files are open, and only for the
numeric id of the record the ledgers may differ, where the second one has the entry before. No
receipt has an entry of that id. -/
structure Shadows (p : Path) (n : Int) (prior : Option LedgerEntry) (c c' : Channel) : Prop where
  receipts : c'.receipts = c.receipts
  others : ∀ r ∈ c.receipts, ∀ e, r.prior = some e → e.IsStorable ∧ e.numericId ≠ n
  ledgers : ∃ ledger alone, IsOpen p c.workspace ledger ∧ IsOpen p c'.workspace alone ∧
    alone.find? n = prior ∧ ∀ m, m ≠ n → ledger.find? m = alone.find? m

variable {c c' : Channel} {n : Int} {prior : Option LedgerEntry}

/-- A release of another numeric id is recorded alike in both channels: their ledgers have the same for
its id. -/
theorem Shadows.record (shadows : Shadows p n prior c c') (away : x.numericId ≠ n)
    (checked : draft.check = .ok x) :
    (c.call p (.record x)).1 = (c'.call p (.record x)).1 ∧
      Shadows p n prior (c.call p (.record x)).2 (c'.call p (.record x)).2 := by
  obtain ⟨ledger, alone, isOpen, isOpen', before, same⟩ := shadows.ledgers
  have answers : ledger.answerTo x = alone.answerTo x := answerTo_congr (same _ away)
  obtain ⟨w, after, recorded, opened, put⟩ := isOpen.record checked
  obtain ⟨w', after', recorded', opened', put'⟩ := isOpen'.record checked
  have kept : after'.find? n = prior := by rw [put', find?_afterRecord_of_ne away, before]
  have still (m : Int) (apart : m ≠ n) : after.find? m = after'.find? m := by
    rw [put, put', find?_afterRecord_congr answers (same m apart)]
  unfold Channel.call
  simp only
  rw [recorded, recorded', ← answers]
  cases told : ledger.answerTo x with
  | error e =>
      exact ⟨rfl, shadows.receipts, shadows.others, after, after', opened, opened', kept, still⟩
  | ok given =>
      refine ⟨rfl, by rw [shadows.receipts], ?_, after, after', opened, opened', kept, still⟩
      refine List.forall_mem_append.mpr ⟨shadows.others, List.forall_mem_singleton.mpr ?_⟩
      -- The new receipt has what the ledger had for the id of this release.
      intro e isPrior
      obtain ⟨member, number⟩ := find?_eq_some ((answerTo_gives told).symm.trans isPrior)
      exact ⟨isOpen.storable e member, number ▸ away⟩

/-- A release of another numeric id is taken back alike in both channels: no receipt has an entry of
the id in which their ledgers differ. -/
theorem Shadows.rollback (shadows : Shadows p n prior c c') (away : x.numericId ≠ n) (k : Nat) :
    (c.call p (.rollback x k)).1 = (c'.call p (.rollback x k)).1 ∧
      Shadows p n prior (c.call p (.rollback x k)).2 (c'.call p (.rollback x k)).2 := by
  obtain ⟨ledger, alone, isOpen, isOpen', before, same⟩ := shadows.ledgers
  unfold Channel.call
  simp only
  rw [shadows.receipts]
  cases inside : c.receipts[k]? with
  | none => exact ⟨rfl, shadows⟩
  | some r =>
      have form := shadows.others r (List.mem_of_getElem? inside)
      obtain ⟨w, after, back, opened, taken⟩ :=
        isOpen.rollback (fun e isPrior => (form e isPrior).1) x
      obtain ⟨w', after', back', opened', taken'⟩ :=
        isOpen'.rollback (fun e isPrior => (form e isPrior).1) x
      simp only
      rw [back, back']
      refine ⟨rfl, rfl, shadows.others, after, after', opened, opened', ?_, fun m apart => ?_⟩
      · rw [taken', find?_takenBack_of_ne away fun e isPrior => (form e isPrior).2, before]
      · rw [taken, taken', find?_takenBack_congr (same m apart)]

/-- A call for another numeric id is answered alike in both channels, which stay as they are to each
other. -/
theorem Shadows.call (shadows : Shadows p n prior c c') {next : Call}
    (other : next.release.numericId ≠ n)
    (checked : ∀ x, next = .record x → ∃ draft : Draft, draft.check = .ok x) :
    (c.call p next).1 = (c'.call p next).1 ∧
      Shadows p n prior (c.call p next).2 (c'.call p next).2 := by
  cases next with
  | record x =>
      obtain ⟨draft, form⟩ := checked x rfl
      exact shadows.record other form
  | rollback x k => exact shadows.rollback other k

/-- Calls for other numeric ids are answered alike in both channels. -/
theorem Shadows.calls (shadows : Shadows p n prior c c') {between : List Call}
    (others : ∀ next ∈ between, next.release.numericId ≠ n)
    (checked : ∀ x, .record x ∈ between → ∃ draft : Draft, draft.check = .ok x) :
    (c.calls p between).1 = (c'.calls p between).1 ∧
      Shadows p n prior (c.calls p between).2 (c'.calls p between).2 := by
  induction between generalizing c c' with
  | nil => exact ⟨rfl, shadows⟩
  | cons next rest ih =>
      obtain ⟨first, last⟩ := List.forall_mem_cons.mp others
      obtain ⟨answer, onward⟩ := shadows.call first fun x same =>
        checked x (same ▸ List.mem_cons_self)
      obtain ⟨answers, final⟩ := ih onward last fun x member =>
        checked x (List.mem_cons_of_mem _ member)
      exact ⟨List.cons_eq_cons.mpr ⟨answer, answers⟩, final⟩

end Channel

/-- Undoing a record brings back the ledger as it would be without the record. Whatever is recorded
and taken back for other numeric ids in between is answered as it would be without it; if that is
nothing, the ledger is as it was before. This holds of every file whose ledger can be written, since
a ledger that is saved is loaded as the same map. -/
theorem rollback_undoes {prior : Option LedgerEntry} {between : List Call}
    (sound : w.files.IsSound) (found : loaded p w.files = .ok ledger)
    (writable : ∀ e ∈ ledger.entries, e.IsWritable) (checked : draft.check = .ok d)
    (recorded : (record p d).outcome w = (.ok prior, w'))
    (others : ∀ next ∈ between, next.release.numericId ≠ d.numericId)
    (checked' : ∀ x, .record x ∈ between → ∃ draft : Draft, draft.check = .ok x) :
    ((⟨w', []⟩ : Channel).calls p between).1 = ((⟨w, []⟩ : Channel).calls p between).1 ∧
    (∃ last restored alone,
      (rollback p d prior).outcome ((⟨w', []⟩ : Channel).calls p between).2.workspace =
        (.ok (), last) ∧
      loaded p last.files = .ok restored ∧
      loaded p ((⟨w, []⟩ : Channel).calls p between).2.workspace.files = .ok alone ∧
      ∀ n, restored.find? n = alone.find? n) ∧
    ∀ (v v' : Workspace) (other : Ledger), v.files.IsSound → other.IsSound →
      (other.save p).outcome v = (.ok (), v') →
        ∃ read, loaded p v'.files = .ok read ∧ ∀ n, read.find? n = other.find? n := by
  have isOpen := IsOpen.of_recorded sound found writable recorded
  obtain ⟨w₁, after, ended, opened, put⟩ := isOpen.record checked
  obtain ⟨told, rfl⟩ := Prod.mk.inj (recorded.symm.trans ended)
  have before := answerTo_gives told.symm
  -- The two channels start behind the record and without it.
  have start : Channel.Shadows p d.numericId prior ⟨w', []⟩ ⟨w, []⟩ :=
    ⟨rfl, List.forall_mem_nil _, after, ledger, opened, isOpen, before.symm, fun m apart => by
      rw [put, find?_afterRecord_of_ne (Ne.symm apart)]⟩
  obtain ⟨answers, shadows⟩ := start.calls others checked'
  obtain ⟨final, alone, finalOpen, aloneOpen, kept, same⟩ := shadows.ledgers
  refine ⟨answers, ?_, fun v v' other files form saved => ?_⟩
  · have number (e : LedgerEntry) (isPrior : prior = some e) :
        e ∈ ledger.entries ∧ e.numericId = d.numericId :=
      find?_eq_some (before.symm.trans isPrior)
    obtain ⟨last, restored, back, lastOpen, taken⟩ :=
      finalOpen.rollback (fun e isPrior => isOpen.storable e (number e isPrior).1) d
    refine ⟨last, restored, alone, back, lastOpen.found, aloneOpen.found, fun n => ?_⟩
    rw [taken, find?_takenBack fun e isPrior => (number e isPrior).2]
    split
    · rename_i here
      rw [← here, kept]
    · rename_i apart
      exact same n (Ne.symm apart)
  · obtain ⟨_, _, _, read, again, same⟩ := save_gives files form saved
    exact ⟨read, again, same⟩

end Ledger

namespace Sample

open Ledger

/-- The workspace after the first release of the package. -/
def begun : Workspace := ((Ledger.record releases (release "1.0.0")).outcome channel).2

/-- A release of another package. -/
def besides (version : Text) : Descriptor :=
  { release version with name := "besides", numericId := 8 }

/-- The other package is released twice, with a release between them that is too old, and the second
one is taken back. -/
def meanwhile : List Call := [
  .record (besides "2.0.0"), .record (besides "1.0.0"), .record (besides "2.1.0"),
  .rollback (besides "2.1.0") 1]

set_option maxRecDepth 100000 in
/-- A second release is undone when another package has been released since. -/
theorem rollback_undoes_meanwhile :
    ∃ prior w' last restored alone,
      (Ledger.record releases (release "1.1.0")).outcome begun = (.ok prior, w') ∧
      prior.isSome = true ∧
      ((⟨w', []⟩ : Channel).calls releases meanwhile).1 =
        ((⟨begun, []⟩ : Channel).calls releases meanwhile).1 ∧
      (Ledger.rollback releases (release "1.1.0") prior).outcome
        ((⟨w', []⟩ : Channel).calls releases meanwhile).2.workspace = (.ok (), last) ∧
      loaded releases last.files = .ok restored ∧
      loaded releases ((⟨begun, []⟩ : Channel).calls releases meanwhile).2.workspace.files =
        .ok alone ∧
      ∀ n, restored.find? n = alone.find? n := by
  have start : channel.files.IsSound := isSound_of_nodes (by decide +kernel) (by decide +kernel)
  have sound : begun.files.IsSound := isSound_of_record start (Prod.ext rfl rfl)
  have form : [release "1.1.0", besides "2.0.0", besides "1.0.0", besides "2.1.0"].all isChecked =
      true := by decide +kernel
  have checked := exists_of_isChecked form
  have read : passes (loaded releases begun.files) (fun ledger =>
      decide (ledger = ⟨[entryFor (release "1.0.0")]⟩)) = true := by decide +kernel
  obtain ⟨ledger, found, same⟩ := exists_of_passes read
  obtain rfl := of_decide_eq_true same
  have run : (Ledger.record releases (release "1.1.0")).gives begun (fun prior _ => prior.isSome) =
      true := by decide +kernel
  obtain ⟨prior, w', recorded, some⟩ := exists_of_gives run
  obtain ⟨draft, allowed⟩ := checked (release "1.1.0") List.mem_cons_self
  have writable : ∀ e ∈ [entryFor (release "1.0.0")], e.IsWritable :=
    List.forall_mem_singleton.mpr ⟨Text.isEncodable_ofString _, Text.isEncodable_ofString _,
      Text.isEncodable_nil⟩
  have others : ∀ next ∈ meanwhile, next.release.numericId ≠ (release "1.1.0").numericId := by
    decide
  obtain ⟨answers, ⟨last, restored, alone, back, again, also, equal⟩, _⟩ :=
    rollback_undoes sound found writable allowed recorded others
      fun x member => checked x (List.mem_cons_of_mem _ (by simpa [meanwhile] using member))
  exact ⟨prior, w', last, restored, alone, recorded, some, answers, back, again, also, equal⟩

end Sample

end ModulePackaging
