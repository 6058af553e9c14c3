import ModulePackaging.Proofs.Actions
import ModulePackaging.Proofs.Files.Directories
import ModulePackaging.Proofs.Files.Names

/-!
# What operations leave of a workspace

An operation leaves the mark as it is and the files as they were but for the locations that it
touches and the directories that it makes. A value that is stored is written beside its file and
moved into place: either the file holds all of it, or the file is as it was before.
-/

namespace ModulePackaging

open Files Files.Tree Action

variable {α : Type} {w w' w'' : Workspace} {touched touched' made made' : Location → Prop}

namespace Action

theorem outcome_writeFile (p : Path) (content : Bytes) (w : Workspace) :
    (writeFile p content).outcome w =
      match w.files.write p content defaultMode with
      | .ok files => (.ok (), { w with files })
      | .error e => (.error (.files e), w) := outcome_change _ w

theorem writeFile_gives {p : Path} {content : Bytes}
    (h : (writeFile p content).outcome w = (.ok (), w')) :
    w.files.write p content defaultMode = .ok w'.files ∧ w'.mark = w.mark := by
  rw [outcome_writeFile] at h
  cases written : w.files.write p content defaultMode with
  | ok files =>
      rw [written] at h
      cases h
      exact ⟨rfl, rfl⟩
  | error e =>
      rw [written] at h
      exact absurd h (by simp)

theorem parent_of_makeDirectories {p : Path}
    (h : (makeDirectories p).outcome w = (.ok (), w')) :
    ∃ l, w'.files.resolve p = .ok l ∧ w'.files.node? l = some .directory := by
  rw [outcome_makeDirectories] at h
  cases refusal : (w.files.makeDirectories p).2 with
  | some e =>
      rw [refusal] at h
      exact absurd h (by simp)
  | none =>
      rw [refusal] at h
      cases h
      exact makeDirectories_gives refusal

end Action

/-- The workspace after an operation: the mark is the same, and only touched locations and new
directories differ. -/
structure Leaves (touched made : Location → Prop) (w w' : Workspace) : Prop where
  mark : w'.mark = w.mark
  files : Evolves touched made w.files w'.files

namespace Leaves

theorem refl (sound : w.files.IsSound) : Leaves touched made w w := ⟨rfl, Evolves.refl sound⟩

theorem trans (h : Leaves touched made w w') (k : Leaves touched made w' w'') :
    Leaves touched made w w'' := ⟨k.mark.trans h.mark, h.files.trans k.files⟩

theorem mono (h : Leaves touched made w w') (wider : ∀ l, touched l → touched' l)
    (more : ∀ l, made l → made' l) : Leaves touched' made' w w' :=
  ⟨h.mark, h.files.mono wider more⟩

theorem of_directories (h : Leaves touched made w w')
    (there : ∀ l, made l → w.files.node? l = some .directory) :
    Leaves touched (fun _ => False) w w' := ⟨h.mark, h.files.of_directories there⟩

theorem of_looks {work : Action α} (looks : Looks work) (sound : w.files.IsSound)
    {result : Except Fault α} (h : work.outcome w = (result, w')) : Leaves touched made w w' := by
  obtain ⟨files, mark⟩ := looks.outcome h
  refine ⟨mark, ?_⟩
  rw [files]
  exact Evolves.refl sound

theorem writeFile {p : Path} {content : Bytes} {result : Except Fault Unit}
    (sound : w.files.IsSound) (here : touched (w.files.placeOf p))
    (h : (Action.writeFile p content).outcome w = (result, w')) : Leaves touched made w w' := by
  rw [outcome_writeFile] at h
  cases written : w.files.write p content defaultMode with
  | error e =>
      rw [written] at h
      cases h
      exact refl sound
  | ok files =>
      rw [written] at h
      cases h
      exact ⟨rfl, write_evolves sound written here⟩

/-- Making directories on the way to a steady path touches nothing. -/
theorem makeDirectories {p : Path} {result : Except Fault Unit} (sound : w.files.IsSound)
    (steady : w.files.IsSteady p) (above : ∀ l, IsAbove l (w.files.placeOf p) → made l)
    (h : (Action.makeDirectories p.parent).outcome w = (result, w')) :
    Leaves touched made w w' := by
  rw [outcome_makeDirectories] at h
  obtain ⟨_, rfl⟩ := Prod.mk.inj h
  exact ⟨rfl, Evolves.of_extends sound
    ((steady.makeDirectories_extends sound).mono fun l here _ => above l here)⟩

/-- Wherever directories are made, the files stay sound and nothing is lost. -/
theorem makeDirectories_anywhere {p : Path} {result : Except Fault Unit} (sound : w.files.IsSound)
    (h : (Action.makeDirectories p).outcome w = (result, w')) :
    Leaves (fun _ => True) (fun _ => True) w w' := by
  rw [outcome_makeDirectories] at h
  obtain ⟨_, rfl⟩ := Prod.mk.inj h
  exact ⟨rfl, Evolves.of_extends sound
    ((makeDirectories_extends w.files p).mono fun _ _ _ => trivial)⟩

theorem settled {p : Path} (h : Leaves touched made w w') (settled : w.files.IsSettled p) :
    w'.files.IsSettled p := h.files.settled settled

theorem steady {p : Path} (h : Leaves touched made w w') (steady : w.files.IsSteady p) :
    w'.files.IsSteady p := h.files.steady steady

end Leaves

/-! ## Storing a value -/

section Store

variable {p : Path} {value : Json} {result : Except Fault Unit}

/-- The path beside a file that its content is written to first. -/
def Path.temporary (p : Path) (mark : Text) : Path :=
  ⟨p.anchor, p.parts.dropLast ++ [p.name ++ ".tmp." ++ mark]⟩

/-- The directories are made; for a path with a name, the bytes are written beside it and moved. -/
theorem storeJson_eq (p : Path) (value : Json) :
    Action.storeJson p value = (do
      Action.makeDirectories p.parent
      let w ← get
      if p.parts.isEmpty then throw (.files (.noName p.toText))
      else do
        let bytes ← Action.ofExcept id value.storedBytes
        Action.writeFile (p.temporary w.mark) (bytes ++ [0x0A])
        Action.change (·.replace (p.temporary w.mark) p)) := by
  unfold Action.storeJson Path.withName?
  congr 1
  funext _
  congr 1
  funext w
  cases p.parts.isEmpty with
  | true => rfl
  | false => rfl

theorem name_temporary_ne_back (p : Path) (mark : Text) : p.name ++ ".tmp." ++ mark ≠ back := by
  intro same
  have size := congrArg List.length same
  have middle : (".tmp." : Text).length = 5 := by decide
  simp only [List.length_append, middle, back, List.length_cons, List.length_nil] at size
  omega

theorem placeOf_temporary (tree : Tree) (p : Path) (mark : Text) :
    tree.placeOf (p.temporary mark) = tree.placeOf p.parent ++ [p.name ++ ".tmp." ++ mark] := by
  show walk (tree.startOf p) (p.parts.dropLast ++ [_]) = _
  rw [walk_append]
  show (if _ = back then _ else _) = _
  rw [if_neg (name_temporary_ne_back p mark)]
  rfl

/-- Storing a value ends when its directories are made, when it is written beside its path, or with
what was written moved to the path. -/
theorem storeJson_ends (h : (Action.storeJson p value).outcome w = (result, w')) :
    ∃ ends w₁, (Action.makeDirectories p.parent).outcome w = (ends, w₁) ∧
      ((∃ e, result = .error e) ∧ w' = w₁ ∨
        p.parts ≠ [] ∧ ends = .ok () ∧ ∃ bytes written w₂, value.storedBytes = .ok bytes ∧
          (Action.writeFile (p.temporary w₁.mark) (bytes ++ [0x0A])).outcome w₁ = (written, w₂) ∧
          ((∃ e, result = .error e) ∧ w' = w₂ ∨
            written = .ok () ∧ result = .ok () ∧ ∃ files,
              w₂.files.replace (p.temporary w₁.mark) p = .ok files ∧ w' = { w₂ with files })) := by
  rw [storeJson_eq] at h
  rcases bind_ends h with ⟨e, directories, rfl⟩ | ⟨_, w₁, directories, h⟩
  · exact ⟨_, w', directories, .inl ⟨⟨e, rfl⟩, rfl⟩⟩
  refine ⟨_, w₁, directories, ?_⟩
  rw [outcome_bind, outcome_get] at h
  simp only at h
  split at h
  · cases h
    exact .inl ⟨⟨_, rfl⟩, rfl⟩
  rename_i parts
  rw [outcome_bind, outcome_ofExcept] at h
  cases stored : value.storedBytes with
  | error e =>
      rw [stored] at h
      cases h
      exact .inl ⟨⟨_, rfl⟩, rfl⟩
  | ok bytes =>
      rw [stored] at h
      refine .inr ⟨by simpa using parts, rfl, bytes, ?_⟩
      rcases bind_ends h with ⟨e, written, rfl⟩ | ⟨_, w₂, written, moved⟩
      · exact ⟨_, w', rfl, written, .inl ⟨⟨e, rfl⟩, rfl⟩⟩
      refine ⟨_, w₂, rfl, written, ?_⟩
      rw [outcome_change] at moved
      cases done : w₂.files.replace (p.temporary w₁.mark) p with
      | error e =>
          rw [done] at moved
          cases moved
          exact .inl ⟨⟨_, rfl⟩, rfl⟩
      | ok files =>
          rw [done] at moved
          cases moved
          exact .inr ⟨rfl, rfl, files, rfl, rfl⟩

/-- Storing a value makes the directories on the way to its path, then touches the place beside the
path, and the place of the path if it succeeds. -/
theorem storeJson_parts (sound : w.files.IsSound)
    (h : (Action.storeJson p value).outcome w = (result, w')) :
    ∃ ends w₁, (Action.makeDirectories p.parent).outcome w = (ends, w₁) ∧
      Leaves (fun l => l = w.files.placeOf (p.temporary w.mark) ∨
        result = .ok () ∧ l = w.files.placeOf p) (fun _ => False) w₁ w' := by
  obtain ⟨ends, w₁, directories, rest⟩ := storeJson_ends h
  refine ⟨ends, w₁, directories, ?_⟩
  have ready := Leaves.makeDirectories_anywhere sound directories
  rcases rest with ⟨_, rfl⟩ | ⟨_, _, bytes, written, w₂, _, wrote, rest⟩
  · exact Leaves.refl ready.files.sound
  rw [ready.mark] at wrote rest
  have full : Leaves (fun l => l = w.files.placeOf (p.temporary w.mark) ∨
      result = .ok () ∧ l = w.files.placeOf p) (fun _ => False) w₁ w₂ :=
    .writeFile ready.files.sound (.inl (ready.files.placeOf _)) wrote
  rcases rest with ⟨_, rfl⟩ | ⟨_, rfl, files, moved, rfl⟩
  · exact full
  · refine full.trans ⟨rfl, replace_evolves full.files.sound moved ?_ ?_⟩
    · rw [full.files.placeOf, ready.files.placeOf]
      exact .inr ⟨rfl, rfl⟩
    · rw [full.files.placeOf, ready.files.placeOf]
      exact .inl rfl

/-- A value is stored in the place of its path, after it was beside it; if it cannot be stored,
nothing is there that was not before. -/
theorem Leaves.storeJson (sound : w.files.IsSound) (steady : w.files.IsSteady p)
    (beside : touched (w.files.placeOf (p.temporary w.mark)))
    (here : result = .ok () → touched (w.files.placeOf p))
    (above : ∀ l, IsAbove l (w.files.placeOf p) → made l)
    (h : (Action.storeJson p value).outcome w = (result, w')) : Leaves touched made w w' := by
  obtain ⟨ends, w₁, directories, rest⟩ := storeJson_parts sound h
  refine (Leaves.makeDirectories sound steady above directories).trans (rest.mono ?_ ?_)
  · rintro l (rfl | ⟨done, rfl⟩)
    · exact beside
    · exact here done
  · exact fun _ => False.elim

/-- Wherever a value is stored, the files stay sound and no directory is lost. -/
theorem Leaves.storeJson_anywhere (sound : w.files.IsSound)
    (h : (Action.storeJson p value).outcome w = (result, w')) :
    Leaves (fun _ => True) (fun _ => True) w w' := by
  obtain ⟨ends, w₁, directories, rest⟩ := storeJson_parts sound h
  exact (Leaves.makeDirectories_anywhere sound directories).trans
    (rest.mono (fun _ _ => trivial) fun _ => False.elim)

/-- What is stored is not beside itself. -/
theorem temporary_ne (tree : Tree) (p : Path) (mark : Text) :
    tree.placeOf (p.temporary mark) ≠ tree.placeOf p := by
  rw [placeOf_temporary]
  by_cases none : p.parts = []
  · have same : p.parent = p := by rw [Path.parent, none, List.dropLast_nil, ← none]
    rw [same]
    simp
  have some : p.parts ≠ [] := none
  by_cases isBack : p.name = back
  · rw [placeOf_of_parts some, if_pos isBack]
    intro same
    have size := congrArg List.length same
    simp only [List.length_append, List.length_singleton, List.length_dropLast] at size
    omega
  · rw [placeOf_eq_concat some isBack]
    intro same
    have name := congrArg List.length (List.singleton_inj.mp (List.append_cancel_left same))
    have middle : (".tmp." : Text).length = 5 := by decide
    simp only [List.length_append, middle] at name
    omega

/-- Workspaces in which a path has the same place, with the same file in it or with none. -/
structure HasSameFile (p : Path) (w w' : Workspace) : Prop where
  place : w'.files.placeOf p = w.files.placeOf p
  file : ∀ content mode, w'.files.node? (w'.files.placeOf p) = some (.file content mode) ↔
    w.files.node? (w.files.placeOf p) = some (.file content mode)

theorem HasSameFile.refl (p : Path) (w : Workspace) : HasSameFile p w w :=
  ⟨rfl, fun _ _ => Iff.rfl⟩

/-- The file that a path leads to is read as before if it still leads there. -/
theorem HasSameFile.read {content : Bytes} (same : HasSameFile p w w')
    (files : Evolves touched made w.files w'.files) (read : w.files.read p = .ok content) :
    w'.files.read p = .ok content := by
  obtain ⟨l, mode, reached, file⟩ := read_eq_ok.mp read
  have there := files.resolve reached
  refine read_eq_ok.mpr ⟨l, mode, there, ?_⟩
  rw [resolve_eq_placeOf there]
  rw [resolve_eq_placeOf reached] at file
  exact (same.file content mode).mpr file

/-- A value that cannot be stored leaves the file in its place as it was, or none where none was,
whatever directories were made. -/
theorem hasSameFile_of_failed_store {e : Fault} (sound : w.files.IsSound)
    (h : (Action.storeJson p value).outcome w = (.error e, w')) : HasSameFile p w w' := by
  obtain ⟨ends, w₁, directories, rest⟩ := storeJson_parts sound h
  rw [outcome_makeDirectories] at directories
  obtain ⟨_, rfl⟩ := Prod.mk.inj directories
  have extends' := makeDirectories_extends w.files p.parent
  have place : w'.files.placeOf p = w.files.placeOf p := by
    rw [rest.files.placeOf, placeOf, placeOf, extends'.startOf]
  have spared : ¬ (w.files.placeOf p = w.files.placeOf (p.temporary w.mark) ∨
      (Except.error e : Except Fault Unit) = .ok () ∧ w.files.placeOf p = w.files.placeOf p) := by
    rintro (same | ⟨done, _⟩)
    · exact temporary_ne w.files p w.mark same.symm
    · exact absurd done (by simp)
  refine ⟨place, fun content mode => ?_⟩
  rw [place, rest.files.kept _ spared id]
  rcases extends'.kept (w.files.placeOf p) with same | ⟨_, nothing, directory⟩
  · rw [same]
  · simp [nothing, directory]

/-- A path whose file is there with some content, and beside it room to write it anew. -/
structure IsStored (tree : Tree) (p : Path) (mark : Text) (content : Bytes) : Prop where
  named : p.parts ≠ []
  parent : tree.resolve p.parent = .ok (tree.placeOf p.parent)
  directory : tree.node? (tree.placeOf p.parent) = some .directory
  reached : tree.resolve p = .ok (tree.placeOf p)
  file : ∃ mode, tree.node? (tree.placeOf p) = some (.file content mode)
  beside : tree.resolve (p.temporary mark) = .ok (tree.placeOf (p.temporary mark))
  room : tree.node? (tree.placeOf (p.temporary mark)) ≠ some .directory

/-- What is stored stays so if its place and the place beside it are spared. -/
theorem IsStored.mono {tree tree' : Tree} {mark : Text} {content : Bytes}
    (stored : IsStored tree p mark content) (h : Evolves touched made tree tree')
    (spared : ¬ touched (tree.placeOf p)) (old : ¬ made (tree.placeOf p))
    (aside : ¬ made (tree.placeOf (p.temporary mark))) : IsStored tree' p mark content where
  named := stored.named
  parent := h.placeOf p.parent ▸ h.resolve stored.parent
  directory := by
    rw [h.placeOf]
    exact h.directories _ stored.directory
  reached := h.placeOf p ▸ h.resolve stored.reached
  file := by
    rw [h.placeOf, h.kept _ spared old]
    exact stored.file
  beside := h.placeOf (p.temporary mark) ▸ h.resolve stored.beside
  room := by
    rw [h.placeOf]
    intro directory
    rcases h.made _ directory with before | new
    · exact stored.room before
    · exact aside new

/-- Content that is written beside a path and then moved over it is stored there. -/
theorem isStored_of_moved {tree beside tree' : Tree} {mark : Text} {content : Bytes} {m : Location}
    (sound : tree.IsSound) (named : p.parts ≠ []) (toParent : tree.resolve p.parent = .ok m)
    (directory : tree.node? m = some .directory)
    (written : tree.write (p.temporary mark) content defaultMode = .ok beside)
    (moved : beside.replace (p.temporary mark) p = .ok tree') : IsStored tree' p mark content := by
  have first : Evolves (fun _ => True) (fun _ => True) tree beside :=
    write_evolves sound written trivial
  have last : Evolves (fun _ => True) (fun _ => True) beside tree' :=
    replace_evolves first.sound moved trivial trivial
  have all := first.trans last
  obtain ⟨t, kept, besideFound, rfl, notTop, _⟩ := write_eq_ok written
  obtain ⟨source, moving, mode, l, pair, other, rfl⟩ := replace_eq_ok.mp moved
  obtain ⟨fromBeside, toPlace, there, _⟩ := sourceAndTarget_eq_ok.mp pair
  -- The file that is moved is the one that was written beside the path.
  obtain rfl : source = t := by
    rw [resolve_eq_placeOf fromBeside, first.placeOf, resolve_eq_placeOf besideFound]
  have after := first.sound.node?_moved there other
  obtain rfl : moving = content := by
    rw [node?_set_self notTop] at there
    cases there
    rfl
  have apart : source ≠ l := by
    rw [resolve_eq_placeOf fromBeside, resolve_eq_placeOf toPlace]
    exact temporary_ne _ p _
  have parentPlace := resolve_eq_placeOf (all.resolve toParent)
  have place := resolve_eq_placeOf (last.resolve toPlace)
  have besidePlace := resolve_eq_placeOf (last.resolve fromBeside)
  refine ⟨named, ?_, ?_, ?_, ⟨mode, ?_⟩, ?_, ?_⟩
  · rw [← parentPlace]
    exact all.resolve toParent
  · rw [← parentPlace]
    exact all.directories m directory
  · rw [← place]
    exact last.resolve toPlace
  · rw [← place, after, if_pos rfl]
  · rw [← besidePlace]
    exact last.resolve fromBeside
  · rw [← besidePlace, after, if_neg apart, if_pos rfl]
    simp

/-- A value that is stored is in its file as a whole. -/
theorem storeJson_gives (sound : w.files.IsSound)
    (h : (Action.storeJson p value).outcome w = (.ok (), w')) :
    ∃ bytes, value.storedBytes = .ok bytes ∧ IsStored w'.files p w.mark (bytes ++ [0x0A]) := by
  obtain ⟨ends, w₁, directories, rest⟩ := storeJson_ends h
  have ready := Leaves.makeDirectories_anywhere sound directories
  rw [ready.mark] at rest
  rcases rest with ⟨⟨e, failed⟩, _⟩ | ⟨named, rfl, bytes, written, w₂, stored, wrote, rest⟩
  · exact absurd failed (by simp)
  rcases rest with ⟨⟨e, failed⟩, _⟩ | ⟨rfl, _, files, moved, rfl⟩
  · exact absurd failed (by simp)
  obtain ⟨m, toParent, directory⟩ := parent_of_makeDirectories directories
  exact ⟨bytes, stored, isStored_of_moved ready.files.sound named toParent directory
    (writeFile_gives wrote).1 moved⟩

/-- A path on which a file can be put: it leads to no directory, in one, and beside it there is
none. -/
structure HasRoom (tree : Tree) (p : Path) (mark : Text) : Prop where
  named : p.parts ≠ []
  parent : tree.node? (tree.placeOf p.parent) = some .directory
  reached : tree.resolve p = .ok (tree.placeOf p)
  above : tree.node? (tree.placeOf p).dropLast = some .directory
  free : tree.node? (tree.placeOf p) ≠ some .directory
  beside : tree.resolve (p.temporary mark) = .ok (tree.placeOf (p.temporary mark))
  room : tree.node? (tree.placeOf (p.temporary mark)) ≠ some .directory

theorem IsStored.hasRoom {tree : Tree} {mark : Text} {content : Bytes}
    (stored : IsStored tree p mark content) (sound : tree.IsSound) : HasRoom tree p mark := by
  obtain ⟨mode, file⟩ := stored.file
  exact ⟨stored.named, stored.directory, stored.reached, sound.above _ (by simp [file]),
    by simp [file], stored.beside, stored.room⟩

/-- Whether a file can be put on a path depends on the directories alone. -/
theorem HasRoom.of_directories {tree tree' : Tree} {mark : Text} (room : HasRoom tree p mark)
    (home : tree'.home = tree.home)
    (same : ∀ l, tree'.node? l = some .directory ↔ tree.node? l = some .directory) :
    HasRoom tree' p mark := by
  have place (q : Path) : tree'.placeOf q = tree.placeOf q := by
    rw [placeOf, placeOf, startOf, startOf, home]
  have onward {q : Path} {l : Location} (found : tree.resolve q = .ok l) :
      tree'.resolve q = .ok l :=
    resolve_of_directories home (fun l => (same l).mpr) found
  constructor
  · exact room.named
  · rw [place, same]
    exact room.parent
  · rw [place]
    exact onward room.reached
  · rw [place, same]
    exact room.above
  · rw [place, ne_eq, same]
    exact room.free
  · rw [place]
    exact onward room.beside
  · rw [place, ne_eq, same]
    exact room.room

/-- Where there is room after the directories are made, a value is stored. -/
theorem storeJson_of_room {w₁ : Workspace} {bytes : Bytes}
    (directories : (Action.makeDirectories p.parent).outcome w = (.ok (), w₁))
    (sound : w₁.files.IsSound) (room : HasRoom w₁.files p w₁.mark)
    (stored : value.storedBytes = .ok bytes) :
    ∃ w', (Action.storeJson p value).outcome w = (.ok (), w') := by
  have above : w₁.files.node? (w₁.files.placeOf (p.temporary w₁.mark)).dropLast =
      some .directory := by
    rw [placeOf_temporary, List.dropLast_concat]
    exact room.parent
  obtain ⟨kept, written⟩ := exists_write (bytes ++ [0x0A]) defaultMode room.beside room.room above
  have notTop : w₁.files.placeOf (p.temporary w₁.mark) ≠ [] := by
    rw [placeOf_temporary]
    simp
  have apart := temporary_ne w₁.files p w₁.mark
  generalize full : w₁.files.set (w₁.files.placeOf (p.temporary w₁.mark))
    (.file (bytes ++ [0x0A]) kept) = files at written
  have evolves : Evolves (fun _ => True) (fun _ => False) w₁.files files :=
    write_evolves sound written trivial
  -- Writing beside the path leaves what is in its place, where there still is no directory.
  have free : files.node? (w₁.files.placeOf p) ≠ some .directory := by
    rw [← full, node?_set_of_ne (Ne.symm apart)]
    exact room.free
  have pair : files.sourceAndTarget (p.temporary w₁.mark) p =
      .ok (w₁.files.placeOf (p.temporary w₁.mark), bytes ++ [0x0A], kept,
        w₁.files.placeOf p) := by
    refine sourceAndTarget_eq_ok.mpr
      ⟨evolves.resolve room.beside, evolves.resolve room.reached, ?_, ?_⟩
    · rw [← full, node?_set_self notTop]
    · exact evolves.directories _ room.above
  have moved := replace_eq_ok.mpr ⟨_, _, _, _, pair, free, rfl⟩
  have some : p.parts.isEmpty = false := by simpa using room.named
  rw [storeJson_eq, outcome_bind, directories]
  simp only
  rw [outcome_bind, outcome_get]
  simp only [some, Bool.false_eq_true, if_false]
  rw [outcome_bind, outcome_ofExcept, stored]
  simp only [mapError_ok]
  rw [outcome_bind, outcome_writeFile, written]
  simp only
  rw [outcome_change, moved]
  exact ⟨_, rfl⟩

/-- What is stored can be stored anew. -/
theorem storeJson_again (sound : w.files.IsSound) {content bytes : Bytes}
    (there : IsStored w.files p w.mark content) (stored : value.storedBytes = .ok bytes) :
    ∃ w', (Action.storeJson p value).outcome w = (.ok (), w') := by
  have directories : w.files.makeDirectories p.parent = (w.files, none) :=
    makeDirectories_of_directory there.parent there.directory
  refine storeJson_of_room ?_ sound (there.hasRoom sound) stored
  rw [outcome_makeDirectories, directories]

/-- Where one value is stored, any other one could be: storing needs the same directories. -/
theorem storeJson_instead {other : Json} {bytes : Bytes} (sound : w.files.IsSound)
    (h : (Action.storeJson p value).outcome w = (.ok (), w'))
    (stored : other.storedBytes = .ok bytes) :
    ∃ w'', (Action.storeJson p other).outcome w = (.ok (), w'') := by
  obtain ⟨_, _, there⟩ := storeJson_gives sound h
  obtain ⟨ends, w₁, directories, rest⟩ := storeJson_parts sound h
  have ready := Leaves.makeDirectories_anywhere sound directories
  have room : HasRoom w₁.files p w₁.mark := by
    rw [ready.mark]
    refine (there.hasRoom rest.files.sound).of_directories rest.files.home.symm fun l => ?_
    exact ⟨rest.files.directories l, fun after => (rest.files.made l after).resolve_right id⟩
  obtain rfl : ends = .ok () := by
    obtain ⟨_, _, first, ⟨⟨e, failed⟩, _⟩ | ⟨_, made, _⟩⟩ := storeJson_ends h
    · exact absurd failed (by simp)
    · exact (Prod.mk.inj (directories.symm.trans first)).1.trans made
  exact storeJson_of_room directories ready.files.sound room stored

end Store

end ModulePackaging
