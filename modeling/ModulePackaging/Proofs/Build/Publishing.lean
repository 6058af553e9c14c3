import ModulePackaging.Build.Basic
import ModulePackaging.Proofs.Archive.Filename
import ModulePackaging.Proofs.Ledger.Files

/-!
# Publishing is all or nothing

A release is recorded before its archive is committed, and taken back if that fails. The ledger is
then the same map as before, unless it cannot be saved once more: the entry before the release has a
text that cannot be written, or the file beside the ledger has become a directory.
-/

namespace ModulePackaging

open Files Files.Tree Action

/-- A mark as the names of temporary files have it. -/
structure Workspace.HasPlainMark (w : Workspace) : Prop where
  slash : Path.slash ∉ w.mark
  point : Archive.point ∉ w.mark

namespace Ledger

variable {ledger other : Ledger} {d : Descriptor} {before after : Except Fault Ledger}

/-- Two ledgers that are the same map, or refused alike. -/
def Agree (before after : Except Fault Ledger) : Prop :=
  match before, after with
  | .ok ledger, .ok other => ∀ n, other.find? n = ledger.find? n
  | .error e, .error f => e = f
  | _, _ => False

theorem Agree.refl (before : Except Fault Ledger) : Agree before before := by
  cases before with
  | ok ledger => exact fun _ => rfl
  | error e => rfl

/-- The ledger after a release: it maps the numeric id to the release, and all else as before. -/
def IsReleased (d : Descriptor) (before after : Except Fault Ledger) : Prop :=
  ∃ ledger other, before = .ok ledger ∧ after = .ok other ∧
    ∀ n, other.find? n = if d.numericId = n then some (entryFor d) else ledger.find? n

/-- What the ledger has for the numeric id of a release cannot be written. -/
def HoldsUnwritable (d : Descriptor) (before : Except Fault Ledger) : Prop :=
  ∃ ledger prior, before = .ok ledger ∧ ledger.find? d.numericId = some prior ∧ ¬ prior.IsWritable

end Ledger

namespace Archive

variable {archive : Archive} {d : Descriptor} {draft : Draft} {out p : Path} {overwrite : Bool}
  {w w' : Workspace} {result : Except Fault Unit}

/-- Where an archive and a ledger have places: both paths are steady. -/
structure HasPlaces (w : Workspace) (out : Path) (ledger : Option Path) : Prop where
  sound : w.files.IsSound
  mark : w.HasPlainMark
  name : IsArchiveName out.name
  steady : w.files.IsSteady out
  ledger : ∀ p, ledger = some p → w.files.IsSteady p

namespace HasPlaces

variable {ledger : Option Path}

theorem ne_stage (places : HasPlaces w out ledger) : out.name ≠ stagingStart ++ w.mark :=
  places.name.ne_stage places.mark.point

/-- The archive does not go to where the ledger is written first. -/
theorem ne_temporary (places : HasPlaces w out ledger) (p : Path) :
    w.files.placeOf out ≠ w.files.placeOf (p.temporary w.mark) := by
  rw [placeOf_eq_concat (Path.parts_ne_nil places.name.plain.some) places.name.plain.back,
    placeOf_temporary]
  intro same
  have names := (List.append_inj' same rfl).2
  exact places.name.ne_temporary places.mark.point p.name (List.singleton_inj.mp names)

/-- Work that loses no directory leaves the places. -/
theorem mono (places : HasPlaces w out ledger) {touched made : Location → Prop}
    (h : Leaves touched made w w') : HasPlaces w' out ledger where
  sound := h.files.sound
  mark := ⟨h.mark ▸ places.mark.slash, h.mark ▸ places.mark.point⟩
  name := places.name
  steady := h.steady places.steady
  ledger p there := h.steady (places.ledger p there)

end HasPlaces

/-- Where an archive and a ledger can be published: both paths are settled, and neither place is at
or above the other. -/
structure CanPublish (w : Workspace) (out : Path) (ledger : Option Path) : Prop where
  sound : w.files.IsSound
  mark : w.HasPlainMark
  name : IsArchiveName out.name
  settled : w.files.IsSettled out
  ledger : ∀ p, ledger = some p → w.files.IsSettled p ∧ HasShortNames p ∧
    ¬ w.files.placeOf p <+: w.files.placeOf out ∧ ¬ w.files.placeOf out <+: w.files.placeOf p

namespace CanPublish

variable {ledger : Option Path}

theorem places (can : CanPublish w out ledger) : HasPlaces w out ledger where
  sound := can.sound
  mark := can.mark
  name := can.name
  steady := .inl can.settled
  ledger p there := .inl (can.ledger p there).1

/-- Work that spares both paths leaves it possible to publish. -/
theorem mono (can : CanPublish w out ledger) {touched made : Location → Prop}
    (h : Leaves touched made w w') : CanPublish w' out ledger where
  sound := h.files.sound
  mark := (can.places.mono h).mark
  name := can.name
  settled := h.settled can.settled
  ledger p there := by
    obtain ⟨settled, short, apart⟩ := can.ledger p there
    rw [h.files.placeOf, h.files.placeOf]
    exact ⟨h.settled settled, short, apart⟩

end CanPublish

/-- What publishing may touch: the archive if it succeeds, the ledger and the file beside it. -/
def Touches (w : Workspace) (out : Path) (ledger : Option Path) (result : Except Fault Unit)
    (l : Location) : Prop :=
  (l = w.files.placeOf out ∧ result = .ok ()) ∨
    ∃ p, ledger = some p ∧ (l = w.files.placeOf p ∨ l = w.files.placeOf (p.temporary w.mark))

/-- Where publishing may make directories: above the archive and above the ledger. -/
def IsAbovePlaces (tree : Tree) (out : Path) (ledger : Option Path) (l : Location) : Prop :=
  IsAbove l (tree.placeOf out) ∨ ∃ p, ledger = some p ∧ IsAbove l (tree.placeOf p)

theorem touches_eq {touched made : Location → Prop} (h : Leaves touched made w w') (out : Path)
    (ledger : Option Path) (result : Except Fault Unit) :
    Touches w' out ledger result = Touches w out ledger result := by
  funext l
  simp only [Touches, h.mark, h.files.placeOf]

theorem isAbovePlaces_eq {touched made : Location → Prop} (h : Leaves touched made w w')
    (out : Path) (ledger : Option Path) :
    IsAbovePlaces w'.files out ledger = IsAbovePlaces w.files out ledger := by
  funext l
  simp only [IsAbovePlaces, h.files.placeOf]

theorem commit_leaves_of_places {ledger : Option Path} (places : HasPlaces w out ledger)
    (h : (archive.commit out overwrite).outcome w = (result, w')) :
    Leaves (fun l => l = w.files.placeOf out ∧ result = .ok ())
      (fun l => IsAbove l (w.files.placeOf out)) w w' :=
  commit_leaves places.sound places.steady places.mark.slash places.ne_stage places.name.plain h

/-- Committing an archive leaves the ledger as it is. -/
theorem loaded_of_commit {ledger : Option Path} (can : CanPublish w out ledger)
    (there : ledger = some p) (h : (archive.commit out overwrite).outcome w = (result, w')) :
    Ledger.loaded p w'.files = Ledger.loaded p w.files := by
  obtain ⟨settled, short, apart, other⟩ := can.ledger p there
  have leaves := commit_leaves_of_places can.places h
  unfold Ledger.loaded
  rw [leaves.files.lookup_eq can.sound settled short]
  · rintro ⟨same, _⟩
    exact apart (same ▸ List.prefix_refl _)
  · exact fun above => apart above.1

/-- How publishing with a ledger ends: when the release cannot be recorded, when the archive is
committed, or when the release was to be taken back. -/
theorem publish_ends (h : (archive.publish d out overwrite (some p)).outcome w = (result, w')) :
    ((∃ e, result = .error e) ∧ ∃ e, (Ledger.record p d).outcome w = (.error e, w')) ∨
      ∃ prior w₁, (Ledger.record p d).outcome w = (.ok prior, w₁) ∧
        ((result = .ok () ∧ (archive.commit out overwrite).outcome w₁ = (.ok (), w')) ∨
          (∃ e, result = .error e) ∧ ∃ fault w₂ taken,
            (archive.commit out overwrite).outcome w₁ = (.error fault, w₂) ∧
              (Ledger.rollback p d prior).outcome w₂ = (taken, w')) := by
  unfold publish at h
  rcases bind_ends h with ⟨e, failed, rfl⟩ | ⟨prior, w₁, recorded, h⟩
  · exact .inl ⟨⟨e, rfl⟩, e, failed⟩
  refine .inr ⟨prior, w₁, recorded, ?_⟩
  rw [outcome_tryCatch] at h
  rcases committed : (archive.commit out overwrite).outcome w₁ with ⟨ends, w₂⟩
  rw [committed] at h
  cases ends with
  | ok _ =>
      cases h
      exact .inl ⟨rfl, rfl⟩
  | error fault =>
      right
      rcases bind_ends h with ⟨e, taken, rfl⟩ | ⟨_, w₃, taken, thrown⟩
      · exact ⟨⟨e, rfl⟩, fault, w₂, .error e, rfl, taken⟩
      · rw [outcome_throw] at thrown
        cases thrown
        exact ⟨⟨fault, rfl⟩, fault, w₂, .ok (), rfl, taken⟩

/-- Saving the ledger touches its place and the one beside it. -/
theorem save_leaves_of_places {ledger : Option Path} {content : Ledger}
    (places : HasPlaces w out ledger) (there : ledger = some p) (result' : Except Fault Unit)
    (h : (content.save p).outcome w = (result, w')) :
    Leaves (Touches w out ledger result') (IsAbovePlaces w.files out ledger) w w' :=
  Ledger.save_leaves places.sound (places.ledger p there) (.inr ⟨p, there, .inr rfl⟩)
    (fun _ => .inr ⟨p, there, .inl rfl⟩) (fun _ above => .inr ⟨p, there, above⟩) h

theorem record_leaves_of_places {ledger : Option Path} {prior : Except Fault (Option LedgerEntry)}
    (places : HasPlaces w out ledger) (there : ledger = some p) (result' : Except Fault Unit)
    (h : (Ledger.record p d).outcome w = (prior, w')) :
    Leaves (Touches w out ledger result') (IsAbovePlaces w.files out ledger) w w' := by
  rcases Ledger.record_saves h with rfl | ⟨_, _, saving⟩
  · exact Leaves.refl places.sound
  · exact save_leaves_of_places places there result' saving

theorem rollback_leaves_of_places {ledger : Option Path} {prior : Option LedgerEntry}
    (places : HasPlaces w out ledger) (there : ledger = some p) (result' : Except Fault Unit)
    (h : (Ledger.rollback p d prior).outcome w = (result, w')) :
    Leaves (Touches w out ledger result') (IsAbovePlaces w.files out ledger) w w' := by
  rcases Ledger.rollback_ends h with ⟨_, rfl⟩ | ⟨_, _, saving⟩
  · exact Leaves.refl places.sound
  · exact save_leaves_of_places places there result' saving

/-- Publishing touches nothing but the archive, if it succeeds, and the ledger. -/
theorem publish_leaves_of_places {ledger : Option Path} (places : HasPlaces w out ledger)
    (h : (archive.publish d out overwrite ledger).outcome w = (result, w')) :
    Leaves (Touches w out ledger result) (IsAbovePlaces w.files out ledger) w w' := by
  cases ledger with
  | none =>
      exact (commit_leaves_of_places places h).mono
        (fun _ here => .inl here) (fun _ above => .inl above)
  | some p =>
      rcases publish_ends h with ⟨_, e, failed⟩ | ⟨prior, w₁, recorded, h⟩
      · exact record_leaves_of_places places rfl result failed
      have first := record_leaves_of_places places rfl result recorded
      have still : HasPlaces w₁ out (some p) := places.mono first
      have touches := touches_eq first out (some p) result
      have above := isAbovePlaces_eq first out (some p)
      rcases h with ⟨rfl, committed⟩ | ⟨⟨e, rfl⟩, fault, w₂, taken, committed, back⟩
      · refine first.trans (touches ▸ above ▸ ?_)
        exact (commit_leaves_of_places still committed).mono
          (fun _ here => .inl here) (fun _ here => .inl here)
      · have second : Leaves (Touches w₁ out (some p) (.error e)) (IsAbovePlaces w₁.files out (some p))
            w₁ w₂ :=
          (commit_leaves_of_places still committed).mono
            (fun _ here => absurd here.2 (by simp)) (fun _ here => .inl here)
        have third := rollback_leaves_of_places (still.mono second) rfl (.error e) back
        rw [touches_eq second, isAbovePlaces_eq second] at third
        exact first.trans (touches ▸ above ▸ second.trans third)

theorem publish_leaves {ledger : Option Path} (can : CanPublish w out ledger)
    (h : (archive.publish d out overwrite ledger).outcome w = (result, w')) :
    Leaves (Touches w out ledger result) (IsAbovePlaces w.files out ledger) w w' :=
  publish_leaves_of_places can.places h

/-- Publishing that fails leaves the output path as it was. -/
theorem found_of_failed_publish {ledger : Option Path} {e : Fault} (can : CanPublish w out ledger)
    (h : (archive.publish d out overwrite ledger).outcome w = (.error e, w')) :
    w'.files.found? out = w.files.found? out := by
  apply (publish_leaves can h).files.found?_eq can.sound can.settled
  · rintro (⟨_, done⟩ | ⟨p, there, same | same⟩)
    · exact absurd done (by simp)
    · exact (can.ledger p there).2.2.1 (same ▸ List.prefix_refl _)
    · exact can.places.ne_temporary p same
  · rintro (above | ⟨p, there, above⟩)
    · exact above.2 rfl
    · exact (can.ledger p there).2.2.2 above.1

/-- Publishing that succeeds leaves the whole archive in the output path. -/
theorem read_of_publish {ledger : Option Path}
    (h : (archive.publish d out overwrite ledger).outcome w = (.ok (), w')) :
    ∃ bytes, archive.toBytes = .ok bytes ∧ w'.files.read out = .ok bytes := by
  cases ledger with
  | none => exact read_of_commit h
  | some p =>
      rcases publish_ends h with ⟨⟨e, failed⟩, _⟩ | ⟨_, _, _, ⟨_, committed⟩ | ⟨⟨e, failed⟩, _⟩⟩
      · exact absurd failed (by simp)
      · exact read_of_commit committed
      · exact absurd failed (by simp)

/-- A release that is recorded can be taken back after a commit that fails, unless the entry before
it cannot be written or the commit has made a directory beside the ledger. -/
theorem exists_takenBack {before read : Ledger} {prior : Option LedgerEntry} {content : Bytes}
    {fault : Fault} (can : CanPublish w out (some p)) (recorded : Ledger.IsRecorded before read d)
    (priorIs : prior = before.find? d.numericId) (stored : IsStored w.files p w.mark content)
    (writable : ∀ e, prior = some e → e.IsWritable)
    (aside : ¬ IsAbove (w.files.placeOf (p.temporary w.mark)) (w.files.placeOf out))
    (h : (archive.commit out overwrite).outcome w = (.error fault, w')) :
    ∃ v, ((read.takenBack d prior).save p).outcome w' = (.ok (), v) := by
  have leaves := commit_leaves_of_places can.places h
  have there : IsStored w'.files p w'.mark content := by
    rw [leaves.mark]
    refine stored.mono leaves.files ?_ (fun above => (can.ledger p rfl).2.2.1 above.1) aside
    rintro ⟨_, done⟩
    exact absurd done (by simp)
  exact recorded.exists_save priorIs writable leaves.files.sound there

/-- What is loaded after a release was taken back because of a commit that failed: the map before
the record, or the map with the release, if the ledger could not be saved once more. -/
theorem loaded_of_failed_commit {before read : Ledger} {prior : Option LedgerEntry}
    {content : Bytes} {fault : Fault} {w₁ : Workspace} {taken : Except Fault Unit}
    (can : CanPublish w out (some p)) (recorded : Ledger.IsRecorded before read d)
    (priorIs : prior = before.find? d.numericId) (stored : IsStored w.files p w.mark content)
    (found : Ledger.loaded p w.files = .ok read)
    (committed : (archive.commit out overwrite).outcome w = (.error fault, w₁))
    (back : (Ledger.rollback p d prior).outcome w₁ = (taken, w')) :
    Ledger.Agree (.ok before) (Ledger.loaded p w'.files) ∨
      Ledger.loaded p w'.files = .ok read ∧
        (Ledger.HoldsUnwritable d (.ok before) ∨
          IsAbove (w.files.placeOf (p.temporary w.mark)) (w.files.placeOf out)) := by
  have still : CanPublish w₁ out (some p) := can.mono (commit_leaves_of_places can.places committed)
  have unchanged : Ledger.loaded p w₁.files = .ok read := by
    rw [loaded_of_commit can rfl committed, found]
  rw [Ledger.outcome_rollback unchanged] at back
  cases taken with
  | ok _ =>
      left
      obtain ⟨_, _, _, last, loaded, same⟩ :=
        Ledger.save_gives still.sound (recorded.isSound_takenBack priorIs) back
      rw [loaded]
      intro n
      rw [same, recorded.find?_takenBack priorIs]
  | error e =>
      right
      obtain ⟨settled, short, _⟩ := still.ledger p rfl
      refine ⟨(Ledger.loaded_of_failed_save still.sound settled short back).trans unchanged, ?_⟩
      -- Were the entry before writable and the file beside no directory, the save would succeed.
      by_contra neither
      obtain ⟨holds, aside⟩ := not_or.mp neither
      have writable : ∀ entry, prior = some entry → entry.IsWritable := by
        intro entry isPrior
        by_contra unwritable
        exact holds ⟨before, entry, rfl, priorIs ▸ isPrior, unwritable⟩
      obtain ⟨v, done⟩ := exists_takenBack can recorded priorIs stored writable aside committed
      exact absurd (back.symm.trans done) (by simp)

/-- What publishing does to the ledger: a success leaves the release in it. A failure leaves the
ledger as it was, or the release stays because the ledger cannot be saved once more. -/
theorem publish_ledger {ledger : Option Path} (can : CanPublish w out ledger) (there : ledger = some p)
    (checked : draft.check = .ok d)
    (h : (archive.publish d out overwrite ledger).outcome w = (result, w')) :
    (result = .ok () ∧
        Ledger.IsReleased d (Ledger.loaded p w.files) (Ledger.loaded p w'.files)) ∨
      (∃ e, result = .error e) ∧
        (Ledger.Agree (Ledger.loaded p w.files) (Ledger.loaded p w'.files) ∨
          Ledger.IsReleased d (Ledger.loaded p w.files) (Ledger.loaded p w'.files) ∧
            (Ledger.HoldsUnwritable d (Ledger.loaded p w.files) ∨
              IsAbove (w.files.placeOf (p.temporary w.mark)) (w.files.placeOf out))) := by
  subst there
  obtain ⟨settled, short, _⟩ := can.ledger p rfl
  rcases publish_ends h with ⟨failed, e, refused⟩ | ⟨prior, w₁, recorded, h⟩
  · refine .inr ⟨failed, .inl ?_⟩
    rw [Ledger.loaded_of_failed_record can.sound settled short refused]
    exact Ledger.Agree.refl _
  have first := record_leaves_of_places can.places rfl result recorded
  have still : CanPublish w₁ out (some p) := can.mono first
  obtain ⟨before, read, found, again, priorIs, form, content, stored⟩ :=
    Ledger.record_gives can.sound checked recorded
  have released : Ledger.loaded p w'.files = .ok read →
      Ledger.IsReleased d (Ledger.loaded p w.files) (Ledger.loaded p w'.files) := by
    intro loaded
    refine ⟨before, read, found, loaded, fun n => ?_⟩
    rw [form.same, Ledger.find?_put]
    rfl
  rcases h with ⟨rfl, committed⟩ | ⟨failed, fault, w₂, taken, committed, back⟩
  · refine .inl ⟨rfl, released ?_⟩
    rw [loaded_of_commit still rfl committed, again]
  · rw [← first.mark] at stored
    have ends := loaded_of_failed_commit still form priorIs stored again committed back
    rw [first.files.placeOf, first.files.placeOf, first.mark, ← found] at ends
    exact .inr ⟨failed, ends.imp_right fun ⟨loaded, why⟩ => ⟨released loaded, why⟩⟩

end Archive

end ModulePackaging
