import ModulePackaging.Proofs.Ledger.Runs

/-!
# Records that are undone

What becomes of a release when others are recorded and undone around it. Undoing a record brings
back the entry before it, and takes away whatever was recorded for the id since. So a release stays
in the ledger as long as no record of its id up to its own is undone behind it.
-/

namespace ModulePackaging

open Files Files.Tree Action

namespace Ledger

variable {ledger : Ledger} {p : Path} {w w' : Workspace} {d : Descriptor}

/-- What a record that succeeded gave back, to undo it with. -/
structure Receipt where
  release : Descriptor
  prior : Option LedgerEntry

/-- An operation on a ledger: a release is recorded, or the record with a receipt is undone. -/
inductive Move
  | record (release : Descriptor)
  | undo (receipt : Nat)

/-- The workspace, and the receipts given so far. -/
structure Channel where
  workspace : Workspace
  receipts : List Receipt

namespace Channel

/-- What an operation makes of a channel, however it ends. -/
def step (p : Path) (c : Channel) : Move → Channel
  | .record d =>
    match (Ledger.record p d).outcome c.workspace with
    | (.ok prior, w) => ⟨w, c.receipts ++ [⟨d, prior⟩]⟩
    | (.error _, w) => ⟨w, c.receipts⟩
  | .undo k =>
    match c.receipts[k]? with
    | some r => ⟨((rollback p r.release r.prior).outcome c.workspace).2, c.receipts⟩
    | none => c

/-- What operations make of a channel, one after the other. -/
def run (p : Path) : Channel → List Move → Channel
  | c, [] => c
  | c, move :: rest => run p (c.step p move) rest

variable {c : Channel}

theorem run_append (p : Path) (c : Channel) (moves others : List Move) :
    c.run p (moves ++ others) = (c.run p moves).run p others := by
  induction moves generalizing c with
  | nil => rfl
  | cons move rest ih => exact ih _

theorem step_recorded {prior : Option LedgerEntry}
    (h : (Ledger.record p d).outcome c.workspace = (.ok prior, w)) :
    c.step p (.record d) = ⟨w, c.receipts ++ [⟨d, prior⟩]⟩ := by
  rw [step, h]

theorem step_failed {e : Fault} (h : (Ledger.record p d).outcome c.workspace = (.error e, w)) :
    c.step p (.record d) = ⟨w, c.receipts⟩ := by
  rw [step, h]

theorem step_undone {k : Nat} {r : Receipt} (h : c.receipts[k]? = some r) :
    c.step p (.undo k) = ⟨((rollback p r.release r.prior).outcome c.workspace).2, c.receipts⟩ := by
  rw [step, h]

theorem step_nothing {k : Nat} (h : c.receipts[k]? = none) : c.step p (.undo k) = c := by
  rw [step, h]

/-- A channel as operations leave it: the entries in its receipts are such as a ledger has, each of
the id of its release. -/
structure IsRegular (c : Channel) : Prop where
  sound : c.workspace.files.IsSound
  receipts : ∀ r ∈ c.receipts, ∀ e, r.prior = some e →
    e.IsSound ∧ e.numericId = r.release.numericId

theorem IsRegular.step (regular : c.IsRegular) {move : Move}
    (checked : ∀ d, move = .record d → ∃ draft : Draft, draft.check = .ok d) :
    (c.step p move).IsRegular := by
  cases move with
  | record d =>
      rcases ended : (Ledger.record p d).outcome c.workspace with ⟨result, w⟩
      have sound := isSound_of_record regular.sound ended
      cases result with
      | error e =>
          rw [step_failed ended]
          exact ⟨sound, regular.receipts⟩
      | ok prior =>
          rw [step_recorded ended]
          refine ⟨sound, List.forall_mem_append.mpr ⟨regular.receipts, ?_⟩⟩
          obtain ⟨draft, form⟩ := checked d rfl
          obtain ⟨_, ledger, _, found, _, rfl, _⟩ := record_succeeds regular.sound form ended
          refine List.forall_mem_cons.mpr ⟨fun e isPrior => ?_, List.forall_mem_nil _⟩
          obtain ⟨member, number⟩ := find?_eq_some isPrior
          exact ⟨(isSound_of_loaded found).entries e member, number⟩
  | undo k =>
      cases there : c.receipts[k]? with
      | none =>
          rw [step_nothing there]
          exact regular
      | some r =>
          rw [step_undone there]
          exact ⟨isSound_of_rollback regular.sound rfl, regular.receipts⟩

theorem IsRegular.run (regular : c.IsRegular) {moves : List Move}
    (checked : ∀ d, .record d ∈ moves → ∃ draft : Draft, draft.check = .ok d) :
    (c.run p moves).IsRegular := by
  induction moves generalizing c with
  | nil => exact regular
  | cons move rest ih =>
      refine ih (regular.step ?_) fun d member => checked d (List.mem_cons_of_mem _ member)
      rintro d rfl
      exact checked d List.mem_cons_self

/-- An entry that stands for a release: under its name, with a standard version that is not
older. -/
structure StandsFor (e : LedgerEntry) (d : Descriptor) : Prop where
  name : e.name = d.name
  version : e.IsNotOlder (entryFor d)
  standard : e.HasStandardVersion

/-- A channel in which a release stays: the ledger has an entry that stands for it, and so has each
receipt of its id from its own place in the receipts on. -/
structure Keeps (p : Path) (d : Descriptor) (place : Nat) (c : Channel) : Prop where
  regular : c.IsRegular
  kept : IsKept p c.workspace
  current : ∃ ledger e, loaded p c.workspace.files = .ok ledger ∧
    ledger.find? d.numericId = some e ∧ StandsFor e d
  passed : place < c.receipts.length
  later : ∀ k r, place < k → c.receipts[k]? = some r → r.release.numericId = d.numericId →
    ∃ e, r.prior = some e ∧ StandsFor e d

/-- A release that the check allows over an entry for a release stands for that release too. -/
theorem StandsFor.of_check {d' : Descriptor} {e : LedgerEntry} (h : StandsFor e d)
    (found : ledger.find? d'.numericId = some e) (allowed : ledger.check d' = .ok ())
    (standard : (entryFor d').HasStandardVersion) : StandsFor (entryFor d') d where
  name := (check_gives allowed found).1.symm.trans h.name
  version := (isNotOlder_of_check allowed found standard h.standard).trans h.version
  standard := standard

namespace Keeps

variable {place : Nat} {w₁ : Workspace}

/-- An operation that fails leaves what is loaded, and with it the release. -/
theorem failed (h : Keeps p d place c)
    (ends : IsKept p w₁ ∧ loaded p w₁.files = loaded p c.workspace.files) :
    Keeps p d place ⟨w₁, c.receipts⟩ := by
  obtain ⟨kept, same⟩ := ends
  obtain ⟨ledger, e, found, there, stands⟩ := h.current
  exact ⟨⟨kept.sound, h.regular.receipts⟩, kept,
    ⟨ledger, e, same.trans found, there, stands⟩, h.passed, h.later⟩

/-- A record that succeeds leaves a release, or puts one in its place that stands for it. -/
theorem recorded {d' : Descriptor} {prior : Option LedgerEntry} {draft : Draft}
    (h : Keeps p d place c) (regular : IsRegular ⟨w₁, c.receipts ++ [⟨d', prior⟩]⟩)
    (checked : draft.check = .ok d')
    (standard : d'.numericId = d.numericId → (entryFor d').HasStandardVersion)
    (ended : (Ledger.record p d').outcome c.workspace = (.ok prior, w₁)) :
    Keeps p d place ⟨w₁, c.receipts ++ [⟨d', prior⟩]⟩ := by
  obtain ⟨ledger, e, found, there, stands⟩ := h.current
  obtain ⟨kept, ledger', read, also, allowed, rfl, again, same⟩ :=
    record_succeeds h.kept.sound checked ended
  obtain rfl := Except.ok.inj (found.symm.trans also)
  refine ⟨regular, kept, ?_, ?_, ?_⟩
  · by_cases here : d'.numericId = d.numericId
    · refine ⟨read, entryFor d', again, by rw [same, if_pos here], ?_⟩
      exact stands.of_check (here ▸ there) allowed (standard here)
    · exact ⟨read, e, again, by rw [same, if_neg here, there], stands⟩
  · rw [List.length_append]
    exact Nat.lt_add_right _ h.passed
  · intro k r behind inside number
    -- The new receipt has the entry that stood for the release until now.
    rw [List.getElem?_append] at inside
    split at inside
    · exact h.later k r behind inside number
    · obtain rfl := List.mem_singleton.mp (List.mem_of_getElem? inside)
      refine ⟨e, ?_, stands⟩
      show ledger.find? d'.numericId = some e
      rw [show d'.numericId = d.numericId from number, there]

/-- A record that is undone leaves a release, unless its receipt is one of the id up to the release's
own. -/
theorem undone {k : Nat} {r : Receipt} (h : Keeps p d place c) (inside : c.receipts[k]? = some r)
    (spared : r.release.numericId = d.numericId → place < k)
    (ended : (rollback p r.release r.prior).outcome c.workspace = (.ok (), w₁)) :
    Keeps p d place ⟨w₁, c.receipts⟩ := by
  obtain ⟨ledger, e, found, there, stands⟩ := h.current
  have form := h.regular.receipts r (List.mem_of_getElem? inside)
  obtain ⟨kept, ledger', read, also, again, same⟩ := rollback_succeeds h.kept.sound form ended
  obtain rfl := Except.ok.inj (found.symm.trans also)
  refine ⟨⟨kept.sound, h.regular.receipts⟩, kept, ?_, h.passed, h.later⟩
  by_cases here : r.release.numericId = d.numericId
  · obtain ⟨e', isPrior, stands'⟩ := h.later k r (spared here) inside here
    exact ⟨read, e', again, by rw [same, if_pos here, isPrior], stands'⟩
  · exact ⟨read, e, again, by rw [same, if_neg here, there], stands⟩

/-- An operation leaves a release where it is, unless it undoes a record of its id up to its own. -/
theorem step {move : Move} (h : Keeps p d place c)
    (checked : ∀ d', move = .record d' → ∃ draft : Draft, draft.check = .ok d')
    (standard : ∀ d', move = .record d' → d'.numericId = d.numericId →
      (entryFor d').HasStandardVersion)
    (spared : ∀ k r, move = .undo k → c.receipts[k]? = some r →
      r.release.numericId = d.numericId → place < k) :
    Keeps p d place (c.step p move) := by
  have regular := h.regular.step (p := p) checked
  cases move with
  | record d' =>
      rcases ended : (Ledger.record p d').outcome c.workspace with ⟨result, w₁⟩
      cases result with
      | error fault =>
          rw [step_failed ended]
          exact h.failed (record_fails h.kept ended)
      | ok prior =>
          rw [step_recorded ended] at regular ⊢
          obtain ⟨draft, form⟩ := checked d' rfl
          exact h.recorded regular form (standard d' rfl) ended
  | undo k =>
      cases inside : c.receipts[k]? with
      | none =>
          rw [step_nothing inside]
          exact h
      | some r =>
          rw [step_undone inside]
          rcases ended : (rollback p r.release r.prior).outcome c.workspace with ⟨result, w₁⟩
          cases result with
          | error fault => exact h.failed (rollback_fails h.kept ended)
          | ok _ => exact h.undone inside (spared k r rfl inside) ended

end Keeps

/-- Receipts are only added. -/
theorem receipts_step (p : Path) (c : Channel) (move : Move) :
    c.receipts <+: (c.step p move).receipts := by
  cases move with
  | record d =>
      rcases ended : (Ledger.record p d).outcome c.workspace with ⟨result, w⟩
      cases result with
      | error e =>
          simp only [step_failed ended, List.prefix_refl]
      | ok prior =>
          rw [step_recorded ended]
          exact List.prefix_append _ _
  | undo k =>
      cases inside : c.receipts[k]? with
      | none =>
          simp only [step_nothing inside, List.prefix_refl]
      | some r =>
          simp only [step_undone inside, List.prefix_refl]

/-- Operations leave a release where it is, if none of them undoes a record of its id up to its
own. -/
theorem Keeps.run {place : Nat} {moves : List Move} {given : List Receipt} (h : Keeps p d place c)
    (first : given <+: c.receipts) (size : given.length = place + 1)
    (checked : ∀ d', .record d' ∈ moves → ∃ draft : Draft, draft.check = .ok d')
    (standard : ∀ d', .record d' ∈ moves → d'.numericId = d.numericId →
      (entryFor d').HasStandardVersion)
    (spared : ∀ k r, .undo k ∈ moves → given[k]? = some r → r.release.numericId ≠ d.numericId) :
    Keeps p d place (c.run p moves) := by
  induction moves generalizing c with
  | nil => exact h
  | cons move rest ih =>
      have next : Keeps p d place (c.step p move) := by
        apply h.step
        · rintro d' rfl
          exact checked d' List.mem_cons_self
        · rintro d' rfl
          exact standard d' List.mem_cons_self
        · rintro k r rfl inside number
          by_contra early
          have here : k < given.length := by omega
          obtain ⟨others, whole⟩ := first
          refine spared k r List.mem_cons_self ?_ number
          rw [← inside, ← whole, List.getElem?_append_left here]
      refine ih next (first.trans (receipts_step p c move)) ?_ ?_ ?_
      · exact fun d' member => checked d' (List.mem_cons_of_mem _ member)
      · exact fun d' member => standard d' (List.mem_cons_of_mem _ member)
      · exact fun k r member => spared k r (List.mem_cons_of_mem _ member)

end Channel

/-- A release that was recorded stays in the ledger, whatever else is recorded and undone in
between, as long as no record of its numeric id up to its own is undone behind it: the id has an
entry with its name, and with a version that is not older. -/
theorem record_stays {before after : List Move} {prior : Option LedgerEntry}
    (sound : w.files.IsSound)
    (checked : ∀ d', .record d' ∈ before ++ .record d :: after →
      ∃ draft : Draft, draft.check = .ok d')
    (standard : ∀ d', .record d' ∈ .record d :: after → d'.numericId = d.numericId →
      (entryFor d').HasStandardVersion)
    (recorded : (record p d).outcome ((⟨w, []⟩ : Channel).run p before).workspace =
      (.ok prior, w'))
    (spared : ∀ k r, .undo k ∈ after →
      (((⟨w, []⟩ : Channel).run p before).receipts ++ [⟨d, prior⟩])[k]? = some r →
        r.release.numericId ≠ d.numericId) :
    ∃ ledger e,
      loaded p ((⟨w, []⟩ : Channel).run p (before ++ .record d :: after)).workspace.files =
        .ok ledger ∧
      ledger.find? d.numericId = some e ∧ e.name = d.name ∧ e.IsNotOlder (entryFor d) := by
  have start : (⟨w, []⟩ : Channel).IsRegular := ⟨sound, List.forall_mem_nil _⟩
  have regular : ((⟨w, []⟩ : Channel).run p before).IsRegular :=
    start.run fun d' member => checked d' (List.mem_append_left _ member)
  generalize middle : (⟨w, []⟩ : Channel).run p before = c at *
  have form := checked d (List.mem_append_right _ List.mem_cons_self)
  obtain ⟨draft, allowed⟩ := form
  obtain ⟨kept, ledger, read, _, _, _, again, same⟩ :=
    record_succeeds regular.sound allowed recorded
  have own := standard d List.mem_cons_self rfl
  have keeps : Channel.Keeps p d c.receipts.length (c.step p (.record d)) := by
    have next : (c.step p (.record d)).IsRegular := regular.step fun d' same => by
      cases same
      exact ⟨draft, allowed⟩
    rw [Channel.step_recorded recorded] at next ⊢
    refine ⟨next, kept, ⟨read, entryFor d, again, by rw [same, if_pos rfl], rfl, ?_, own⟩, ?_, ?_⟩
    · exact own.isNotOlder
    · simp
    · intro k r behind inside
      have outside : c.receipts.length + 1 ≤ k := behind
      rw [List.getElem?_eq_none (by simpa using outside)] at inside
      exact absurd inside (by simp)
  -- From the receipt of this record on, no undoing takes its id back.
  have given : c.receipts ++ [⟨d, prior⟩] <+: (c.step p (.record d)).receipts := by
    simp only [Channel.step_recorded recorded, List.prefix_refl]
  have last := keeps.run given (by simp)
    (fun d' member => checked d' (List.mem_append_right _ (List.mem_cons_of_mem _ member)))
    (fun d' member => standard d' (List.mem_cons_of_mem _ member)) spared
  obtain ⟨ledger, e, found, there, stands⟩ := last.current
  refine ⟨ledger, e, ?_, there, stands.name, stands.version⟩
  rw [Channel.run_append, middle]
  exact found

end Ledger

namespace Sample

open Ledger

set_option maxRecDepth 100000 in
/-- A release stays when another one of its package is recorded and undone behind it. -/
theorem record_stays_of_undone :
    ∃ ledger e, loaded releases ((⟨channel, []⟩ : Channel).run releases
        ([] ++ .record (release "1.0.0") :: [.record (release "1.1.0"), .undo 1])).workspace.files =
      .ok ledger ∧ ledger.find? 7 = some e ∧ e.name = "demo" ∧
      e.IsNotOlder (entryFor (release "1.0.0")) := by
  have sound : channel.files.IsSound := isSound_of_nodes (by decide +kernel) (by decide +kernel)
  have checked : [release "1.0.0", release "1.1.0"].all isChecked = true := by decide +kernel
  have run : (Ledger.record releases (release "1.0.0")).gives channel
      (fun prior _ => prior.isNone) = true := by
    decide +kernel
  obtain ⟨prior, w', recorded, _⟩ := exists_of_gives run
  refine record_stays (d := release "1.0.0") sound ?_ ?_ recorded ?_
  · intro d member
    apply exists_of_isChecked checked
    simpa using member
  · intro d member _
    have one : Version.parse "1.0.0" = .ok ⟨1, 0, 0, [], []⟩ := by rfl
    have two : Version.parse "1.1.0" = .ok ⟨1, 1, 0, [], []⟩ := by rfl
    have either : d = release "1.0.0" ∨ d = release "1.1.0" := by simpa using member
    rcases either with rfl | rfl
    · exact ⟨_, one, List.forall_mem_nil _⟩
    · exact ⟨_, two, List.forall_mem_nil _⟩
  · intro k r undone inside
    obtain rfl : k = 1 := by simpa using undone
    exact absurd inside (by simp [Channel.run])

set_option maxRecDepth 100000 in
/-- A release is lost when the record before it is undone: the package has no entry any more, though
the second record succeeded and is not undone. -/
theorem release_lost :
    (∀ d ∈ [release "1.0.0", release "1.1.0"], ∃ draft : Draft, draft.check = .ok d) ∧
    (∃ prior w', (Ledger.record releases (release "1.1.0")).outcome
      ((⟨channel, []⟩ : Channel).run releases [.record (release "1.0.0")]).workspace =
        (.ok prior, w')) ∧
    ∃ ledger, loaded releases ((⟨channel, []⟩ : Channel).run releases
        [.record (release "1.0.0"), .record (release "1.1.0"), .undo 0]).workspace.files =
      .ok ledger ∧ ledger.find? 7 = none := by
  have checked : [release "1.0.0", release "1.1.0"].all isChecked = true := by decide +kernel
  have second : (Ledger.record releases (release "1.1.0")).gives
      ((⟨channel, []⟩ : Channel).run releases [.record (release "1.0.0")]).workspace
      (fun prior _ => prior.isSome) = true := by
    decide +kernel
  have last : passes (loaded releases ((⟨channel, []⟩ : Channel).run releases
      [.record (release "1.0.0"), .record (release "1.1.0"), .undo 0]).workspace.files)
      (fun ledger => (ledger.find? 7).isNone) = true := by
    decide +kernel
  obtain ⟨prior, w', recorded, _⟩ := exists_of_gives second
  obtain ⟨ledger, found, lost⟩ := exists_of_passes last
  exact ⟨exists_of_isChecked checked, ⟨prior, w', recorded⟩, ledger, found,
    Option.isNone_iff_eq_none.mp lost⟩

end Sample

end ModulePackaging
