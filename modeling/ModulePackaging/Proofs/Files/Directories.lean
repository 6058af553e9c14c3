import Mathlib.Data.List.Infix
import ModulePackaging.Proofs.Files.Names

/-!
# Trees before and after

How the files after some operations compare to the files before: which locations may differ, where
new directories may be, and that no directory is lost. What a path leads to stays the same when its
place is spared, if making directories cannot change where the path leads.
-/

namespace ModulePackaging.Files.Tree

variable {tree tree' tree'' : Tree} {l : Location} {p : Path}

/-! ## Added directories -/

/-- The files after some directories were made, each at a missing location that `made` holds of. -/
structure Extends (made : Location → Prop) (tree tree' : Tree) : Prop where
  home : tree'.home = tree.home
  sound : tree.IsSound → tree'.IsSound
  kept : ∀ l, tree'.node? l = tree.node? l ∨
    made l ∧ tree.node? l = none ∧ tree'.node? l = some .directory

namespace Extends

variable {made made' : Location → Prop}

theorem refl (made : Location → Prop) (tree : Tree) : Extends made tree tree :=
  ⟨rfl, fun sound => sound, fun _ => .inl rfl⟩

theorem trans (h : Extends made tree tree') (k : Extends made tree' tree'') :
    Extends made tree tree'' := by
  refine ⟨k.home.trans h.home, fun sound => k.sound (h.sound sound), ?_⟩
  intro l
  rcases h.kept l with first | ⟨here, nothing, first⟩
  · rcases k.kept l with second | ⟨here, nothing, second⟩
    · exact .inl (second.trans first)
    · exact .inr ⟨here, first ▸ nothing, second⟩
  · rcases k.kept l with second | ⟨_, taken, _⟩
    · exact .inr ⟨here, nothing, second.trans first⟩
    · rw [first] at taken
      exact absurd taken (by simp)

/-- Locations at which something is already are not made. -/
theorem mono (h : Extends made tree tree') (wider : ∀ l, made l → tree.node? l = none → made' l) :
    Extends made' tree tree' := by
  refine ⟨h.home, h.sound, ?_⟩
  intro l
  rcases h.kept l with same | ⟨here, nothing, directory⟩
  · exact .inl same
  · exact .inr ⟨wider l here nothing, nothing, directory⟩

theorem directories (h : Extends made tree tree') {l : Location}
    (there : tree.node? l = some .directory) : tree'.node? l = some .directory := by
  rcases h.kept l with same | ⟨_, _, directory⟩
  · rw [same, there]
  · exact directory

theorem startOf (h : Extends made tree tree') (p : Path) : tree'.startOf p = tree.startOf p := by
  rw [Tree.startOf, Tree.startOf, h.home]

end Extends

theorem makeDirectory_extends (h : tree.makeDirectory p = .ok tree') :
    Extends (fun l => l = tree.placeOf p) tree tree' := by
  obtain ⟨l, found, rfl, nothing, above⟩ := makeDirectory_eq_ok h
  have notTop : l ≠ [] := ne_nil_of_none nothing
  refine ⟨rfl, fun sound => sound.set notTop above fun _ => rfl, ?_⟩
  intro k
  by_cases here : k = l
  · rw [here]
    exact .inr ⟨resolve_eq_placeOf found, nothing, node?_set_self notTop _⟩
  · exact .inl (node?_set_of_ne here _)

theorem ensureDirectory_extends (h : tree.ensureDirectory p = .ok tree') :
    Extends (fun l => l = tree.placeOf p) tree tree' := by
  unfold ensureDirectory at h
  split at h
  · rename_i made done
    cases h
    exact makeDirectory_extends done
  · split at h
    · split at h
      · cases h
        exact Extends.refl _ _
      · exact absurd h (by simp)
      · exact absurd h (by simp)
    · exact absurd h (by simp)

/-- The places that are passed on the way to a path, its own included. -/
def IsOnWay (tree : Tree) (p : Path) (l : Location) : Prop :=
  ∃ parts, parts <+: p.parts ∧ l = walk (tree.startOf p) parts

instance (l : Location) : Decidable (tree.IsOnWay p l) :=
  decidable_of_iff (∃ parts ∈ p.parts.inits, l = walk (tree.startOf p) parts) <| by
    simp only [List.mem_inits, IsOnWay]

theorem thenDirectory_extends {change : Change} {made : Location → Prop}
    (before : Extends made tree change.1) (last : made (tree.placeOf p)) :
    Extends made tree (change.thenDirectory p).1 := by
  obtain ⟨middle, refusal⟩ := change
  have place : middle.placeOf p = tree.placeOf p := by
    rw [placeOf, placeOf, before.startOf]
  cases refusal with
  | some e => exact before
  | none =>
      unfold Change.thenDirectory
      simp only
      cases done : middle.ensureDirectory p with
      | ok made' =>
          refine before.trans ((ensureDirectory_extends done).mono ?_)
          rintro l rfl _
          rw [place]
          exact last
      | error e => exact before

theorem makeParents_extends (parts : Nat) : ∀ (tree : Tree) (p : Path),
    Extends (tree.IsOnWay p) tree (tree.makeParents p parts).1 := by
  induction parts with
  | zero =>
      intro tree p
      exact thenDirectory_extends (Extends.refl _ _) ⟨p.parts, List.prefix_refl _, rfl⟩
  | succ parts ih =>
      intro tree p
      have own : tree.IsOnWay p (tree.placeOf p) := ⟨p.parts, List.prefix_refl _, rfl⟩
      unfold makeParents
      split
      · split
        · exact Extends.refl _ _
        · refine thenDirectory_extends ((ih tree p.parent).mono ?_) own
          rintro l ⟨names, inside, rfl⟩ _
          exact ⟨names, inside.trans (List.dropLast_prefix _), rfl⟩
      · exact thenDirectory_extends (Extends.refl _ _) own

/-- Making directories makes only such as are on the way. -/
theorem makeDirectories_extends (tree : Tree) (p : Path) :
    Extends (tree.IsOnWay p) tree (tree.makeDirectories p).1 :=
  makeParents_extends _ tree p

/-- Nothing is made where a directory is. -/
theorem makeDirectories_of_directory (found : tree.resolve p = .ok l)
    (directory : tree.node? l = some .directory) : tree.makeDirectories p = (tree, none) := by
  have taken : tree.makeDirectory p = .error (.refused .taken p.toText) := by
    unfold makeDirectory
    rw [found]
    simp only [bind, Except.bind, directory]
    rfl
  have isDirectory : tree.isDirectory p = .ok true := by
    unfold Tree.isDirectory lookup
    rw [resolve_eq_ok.mp found]
    simp only [bind, Except.bind, directory]
    rfl
  have last : Change.thenDirectory (tree, none) p = (tree, none) := by
    unfold Change.thenDirectory ensureDirectory
    simp only [taken, isDirectory]
  unfold makeDirectories
  cases p.parts.length with
  | zero => exact last
  | succ parts =>
      unfold makeParents
      rw [taken]
      exact last

theorem ensureDirectory_gives (h : tree.ensureDirectory p = .ok tree') :
    ∃ l, tree'.resolve p = .ok l ∧ tree'.node? l = some .directory := by
  have kept := ensureDirectory_extends h
  unfold ensureDirectory at h
  split at h
  · rename_i made done
    cases h
    obtain ⟨l, found, rfl, nothing, _⟩ := makeDirectory_eq_ok done
    refine ⟨l, resolve_of_directories kept.home (fun _ => kept.directories) found, ?_⟩
    exact node?_set_self (ne_nil_of_none nothing) _
  · split at h
    · split at h
      · rename_i isDirectory
        cases h
        unfold Tree.isDirectory lookup at isDirectory
        cases found : tree.locate p with
        | error e =>
            rw [found] at isDirectory
            exact absurd isDirectory (by simp [bind, Except.bind, pure, Except.pure])
        | ok reached =>
            rw [found] at isDirectory
            cases reached with
            | error e =>
                cases e <;>
                  exact absurd isDirectory (by simp [bind, Except.bind, pure, Except.pure])
            | ok l =>
                refine ⟨l, resolve_eq_ok.mpr found, ?_⟩
                simp only [bind, Except.bind, pure, Except.pure] at isDirectory
                split at isDirectory
                · assumption
                · exact absurd isDirectory (by simp)
      · exact absurd h (by simp)
      · exact absurd h (by simp)
    · exact absurd h (by simp)

/-- Directories that were made are there. -/
theorem makeDirectories_gives (h : (tree.makeDirectories p).2 = none) :
    ∃ l, (tree.makeDirectories p).1.resolve p = .ok l ∧
      (tree.makeDirectories p).1.node? l = some .directory := by
  have last : ∀ change : Change, (change.thenDirectory p).2 = none →
      ∃ l, (change.thenDirectory p).1.resolve p = .ok l ∧
        (change.thenDirectory p).1.node? l = some .directory := by
    rintro ⟨middle, refusal⟩ done
    cases refusal with
    | some e => exact absurd done (by simp [Change.thenDirectory])
    | none =>
        unfold Change.thenDirectory at done ⊢
        simp only at done ⊢
        cases made : middle.ensureDirectory p with
        | ok tree' => exact ensureDirectory_gives made
        | error e =>
            rw [made] at done
            exact absurd done (by simp)
  unfold makeDirectories at h ⊢
  cases count : p.parts.length with
  | zero =>
      rw [count] at h
      exact last _ h
  | succ parts =>
      rw [count] at h
      unfold makeParents at h ⊢
      split at h
      · split at h
        · exact absurd h (by simp)
        · rename_i other
          rw [if_neg other]
          exact last _ h
      · exact last _ h

/-! ## Settled paths -/

/-- A path whose place making directories does not change: it leads somewhere already, or no name in
it leads back. -/
def IsSettled (tree : Tree) (p : Path) : Prop := (∃ l, tree.resolve p = .ok l) ∨ back ∉ p.parts

theorem IsSettled.mono (settled : tree.IsSettled p) (home : tree'.home = tree.home)
    (directories : ∀ l, tree.node? l = some .directory → tree'.node? l = some .directory) :
    tree'.IsSettled p := by
  rcases settled with ⟨l, found⟩ | forward
  · exact .inl ⟨l, resolve_of_directories home directories found⟩
  · exact .inr forward

/-- The directory that a path starts from is there. -/
theorem IsSound.start (sound : tree.IsSound) (p : Path) :
    tree.node? (tree.startOf p) = some .directory := by
  unfold startOf
  split
  · rfl
  · exact sound.home

/-- Whether a location is truly above another one. -/
def IsAbove (l k : Location) : Prop := l <+: k ∧ l ≠ k

/-- Making the directories of a settled path makes only such as are above its place. -/
theorem IsSettled.makeDirectories_extends (settled : tree.IsSettled p) (sound : tree.IsSound) :
    Extends (fun l => IsAbove l (tree.placeOf p)) tree (tree.makeDirectories p.parent).1 := by
  refine (Tree.makeDirectories_extends tree p.parent).mono ?_
  rintro l ⟨names, inside, rfl⟩ nothing
  have start : tree.startOf p.parent = tree.startOf p := rfl
  rw [start] at nothing ⊢
  have notStart : names ≠ [] := by
    rintro rfl
    rw [walk, sound.start] at nothing
    exact absurd nothing (by simp)
  obtain ⟨others, split⟩ := inside.trans (List.dropLast_prefix p.parts)
  have more : others ≠ [] := by
    rintro rfl
    rw [List.append_nil] at split
    have size := inside.length_le
    have some := List.length_pos_iff.mpr notStart
    have parts : p.parent.parts.length = p.parts.length - 1 := List.length_dropLast
    rw [parts, split] at size
    rw [split] at some
    omega
  rcases settled with ⟨m, found⟩ | forward
  · have followed := (locate_eq_ok.mp (resolve_eq_ok.mp found)).2
    rw [← split] at followed
    obtain ⟨middle, first, second⟩ := follow_append_ok.mp followed
    obtain ⟨name, rest, rfl⟩ := List.exists_cons_of_ne_nil more
    rw [← follow_eq_walk first, (follow_cons_ok.mp second).1] at nothing
    exact absurd nothing (by simp)
  · rw [← split, List.mem_append, not_or] at forward
    unfold placeOf
    rw [← split, walk_append, walk_of_forward forward.1, walk_of_forward forward.2]
    exact ⟨List.prefix_append _ _, fun same => more (by simpa using same)⟩

/-- A path above whose place directories are made at most: it is settled, or its directory is
there. -/
def IsSteady (tree : Tree) (p : Path) : Prop :=
  tree.IsSettled p ∨ ∃ l, tree.resolve p.parent = .ok l ∧ tree.node? l = some .directory

theorem IsSteady.mono (steady : tree.IsSteady p) (home : tree'.home = tree.home)
    (directories : ∀ l, tree.node? l = some .directory → tree'.node? l = some .directory) :
    tree'.IsSteady p := by
  rcases steady with settled | ⟨l, found, directory⟩
  · exact .inl (settled.mono home directories)
  · exact .inr ⟨l, resolve_of_directories home directories found, directories l directory⟩

theorem IsSteady.makeDirectories_extends (steady : tree.IsSteady p) (sound : tree.IsSound) :
    Extends (fun l => IsAbove l (tree.placeOf p)) tree (tree.makeDirectories p.parent).1 := by
  rcases steady with settled | ⟨l, found, directory⟩
  · exact settled.makeDirectories_extends sound
  · rw [makeDirectories_of_directory found directory]
    exact Extends.refl _ _

/-- Above the place of a path whose directory is there all are directories. -/
theorem IsSound.directory_above (sound : tree.IsSound) (found : tree.resolve p.parent = .ok l)
    (directory : tree.node? l = some .directory) {k : Location}
    (above : IsAbove k (tree.placeOf p)) : tree.node? k = some .directory := by
  have onto (m : Location) (inside : m <+: l) : tree.node? m = some .directory := by
    by_cases same : m = l
    · rw [same, directory]
    · exact sound.directory_of_prefix (by simp [directory]) inside same
  rw [resolve_eq_placeOf found] at onto
  apply onto
  obtain ⟨inside, other⟩ := above
  by_cases none : p.parts = []
  · have same : tree.placeOf p.parent = tree.placeOf p := by
      rw [placeOf, placeOf, Path.parent, none]
      rfl
    exact same ▸ inside
  -- The last name leads back from the directory, or one name down.
  rw [placeOf_of_parts none] at inside other
  split at inside
  · exact inside.trans (List.dropLast_prefix _)
  · rename_i forward
    rw [if_neg forward] at other
    exact (List.prefix_concat_iff.mp inside).resolve_left other

/-! ## What operations leave -/

/-- The files after some operations: only touched locations and new directories differ, and no
directory is lost. -/
structure Evolves (touched made : Location → Prop) (tree tree' : Tree) : Prop where
  home : tree'.home = tree.home
  sound : tree'.IsSound
  directories : ∀ l, tree.node? l = some .directory → tree'.node? l = some .directory
  kept : ∀ l, ¬ touched l → ¬ made l → tree'.node? l = tree.node? l
  made : ∀ l, tree'.node? l = some .directory → tree.node? l = some .directory ∨ made l

namespace Evolves

variable {touched touched' made made' : Location → Prop}

theorem refl (sound : tree.IsSound) : Evolves touched made tree tree :=
  ⟨rfl, sound, fun _ there => there, fun _ _ _ => rfl, fun _ there => .inl there⟩

theorem trans (h : Evolves touched made tree tree') (k : Evolves touched made tree' tree'') :
    Evolves touched made tree tree'' where
  home := k.home.trans h.home
  sound := k.sound
  directories l there := k.directories l (h.directories l there)
  kept l spared old := (k.kept l spared old).trans (h.kept l spared old)
  made l there := by
    rcases k.made l there with before | new
    · exact h.made l before
    · exact .inr new

theorem mono (h : Evolves touched made tree tree') (wider : ∀ l, touched l → touched' l)
    (more : ∀ l, made l → made' l) : Evolves touched' made' tree tree' where
  home := h.home
  sound := h.sound
  directories := h.directories
  kept l spared old := h.kept l (fun here => spared (wider l here)) fun new => old (more l new)
  made l there := (h.made l there).imp_right (more l)

theorem of_extends (sound : tree.IsSound) (h : Extends made tree tree') :
    Evolves touched made tree tree' where
  home := h.home
  sound := h.sound sound
  directories l there := h.directories there
  kept l _ old := (h.kept l).resolve_right fun new => old new.1
  made l there := by
    rcases h.kept l with same | ⟨new, _⟩
    · exact .inl (same ▸ there)
    · exact .inr new

theorem placeOf (h : Evolves touched made tree tree') (p : Path) :
    tree'.placeOf p = tree.placeOf p := by
  rw [Tree.placeOf, Tree.placeOf, startOf, startOf, h.home]

theorem resolve (h : Evolves touched made tree tree') (found : tree.resolve p = .ok l) :
    tree'.resolve p = .ok l := resolve_of_directories h.home h.directories found

theorem settled (h : Evolves touched made tree tree') (settled : tree.IsSettled p) :
    tree'.IsSettled p := settled.mono h.home h.directories

theorem steady (h : Evolves touched made tree tree') (steady : tree.IsSteady p) :
    tree'.IsSteady p := steady.mono h.home h.directories

/-- Where directories could be made that are there already, none is made. -/
theorem of_directories (h : Evolves touched made tree tree')
    (there : ∀ l, made l → tree.node? l = some .directory) :
    Evolves touched (fun _ => False) tree tree' where
  home := h.home
  sound := h.sound
  directories := h.directories
  kept l spared _ := by
    by_cases here : made l
    · rw [there l here, h.directories l (there l here)]
    · exact h.kept l spared here
  made l directory := .inl ((h.made l directory).elim id (there l))

end Evolves

section Operations

variable {q : Path} {touched made : Location → Prop} {node : Node}

/-- Putting a file where no directory is touches that place. -/
theorem Evolves.set (sound : tree.IsSound) {content : Bytes} {mode : Nat} (some : l ≠ [])
    (above : tree.node? l.dropLast = .some .directory) (other : tree.node? l ≠ .some .directory)
    (here : touched l) : Evolves touched made tree (tree.set l (.file content mode)) := by
  refine ⟨rfl, sound.set some above fun there => absurd there other, ?_, ?_, ?_⟩
  · intro k there
    rw [node?_set_of_ne, there]
    rintro rfl
    exact other there
  · intro k spared _
    apply node?_set_of_ne
    rintro rfl
    exact spared here
  · intro k there
    by_cases same : k = l
    · rw [same, node?_set_self some] at there
      exact absurd there (by simp)
    · rw [node?_set_of_ne same] at there
      exact .inl there

theorem write_evolves (sound : tree.IsSound) {content : Bytes} {mode : Nat}
    (h : tree.write p content mode = .ok tree') (here : touched (tree.placeOf p)) :
    Evolves touched made tree tree' := by
  obtain ⟨l, kept, found, rfl, some, other, above⟩ := write_eq_ok h
  rw [← resolve_eq_placeOf found] at here
  refine Evolves.set sound some ?_ other here
  by_cases nothing : tree.node? l = none
  · exact above nothing
  · exact sound.above l nothing

theorem link_evolves (sound : tree.IsSound) (h : tree.link p q = .ok tree')
    (here : touched (tree.placeOf q)) : Evolves touched made tree tree' := by
  obtain ⟨source, content, mode, target, found, nothing, rfl⟩ := link_eq_ok h
  obtain ⟨_, second, _, above⟩ := sourceAndTarget_eq_ok.mp found
  rw [← resolve_eq_placeOf second] at here
  exact Evolves.set sound (ne_nil_of_none nothing) above (by simp [nothing]) here

/-- Taking a file away touches its place. -/
theorem Evolves.erase_file (sound : tree.IsSound) {content : Bytes} {mode : Nat}
    (there : tree.node? l = some (.file content mode)) (here : touched l) :
    Evolves touched made tree (tree.erase l) := by
  have other : tree.node? l ≠ some .directory := by simp [there]
  have after := sound.node?_erase other
  refine ⟨rfl, sound.erase (sound.not_prefix_home other), ?_, ?_, ?_⟩
  · intro k directory
    rw [after, if_neg, directory]
    rintro rfl
    exact other directory
  · intro k untouched _
    rw [after, if_neg]
    rintro rfl
    exact untouched here
  · intro k directory
    left
    rw [after] at directory
    split at directory
    · exact absurd directory (by simp)
    · exact directory

theorem replace_evolves (sound : tree.IsSound) (h : tree.replace p q = .ok tree')
    (here : touched (tree.placeOf q)) (there : touched (tree.placeOf p)) :
    Evolves touched made tree tree' := by
  obtain ⟨source, content, mode, target, found, other, rfl⟩ := replace_eq_ok.mp h
  obtain ⟨first, second, file, above⟩ := sourceAndTarget_eq_ok.mp found
  rw [← resolve_eq_placeOf second] at here
  rw [← resolve_eq_placeOf first] at there
  have erased : Evolves touched made tree (tree.erase source) :=
    Evolves.erase_file sound file there
  refine erased.trans (Evolves.set erased.sound (ne_nil_of_not_directory other)
    (erased.directories _ above) ?_ here)
  rw [sound.node?_erase (by simp [file])]
  split
  · simp
  · exact other

end Operations

/-! ## What a path leads to -/

/-- What a path leads to; nothing if it leads nowhere. -/
def found? (tree : Tree) (p : Path) : Option Node :=
  match tree.resolve p with
  | .ok l => tree.node? l
  | .error _ => none

/-- Names that cannot be followed, though none is too long and none leads back, name a place where
nothing is. -/
theorem IsSound.none_of_follow (sound : tree.IsSound) {names : List Text} {e : Errno}
    (forward : back ∉ names) (h : tree.follow l names = .error e) (short : e ≠ .nameTooLong) :
    tree.node? (l ++ names) = none := by
  induction names generalizing l with
  | nil => exact absurd h (by simp [follow])
  | cons name rest ih =>
      rw [List.mem_cons, not_or] at forward
      have below : l <+: l ++ name :: rest := List.prefix_append _ _
      have other : l ≠ l ++ name :: rest := by
        intro same
        exact absurd (List.self_eq_append_right.mp same) (by simp)
      rw [follow] at h
      split at h
      · rename_i nothing
        exact sound.none_of_prefix (by simp [nothing]) below other
      · rename_i there
        exact sound.none_of_prefix (by simp [there]) below other
      · split at h
        · cases h
          exact absurd rfl short
        · rw [if_neg (show ¬ name = ([0x2E, 0x2E] : Text) from Ne.symm forward.1)] at h
          have onward := ih forward.2 h
          rwa [List.append_assoc] at onward

/-- A name that is too long stays too long. -/
theorem follow_tooLong {names : List Text}
    (directories : ∀ l, tree.node? l = some .directory → tree'.node? l = some .directory)
    (h : tree.follow l names = .error .nameTooLong) : tree'.follow l names = .error .nameTooLong := by
  induction names generalizing l with
  | nil => exact absurd h (by simp [follow])
  | cons name rest ih =>
      rw [follow] at h ⊢
      split at h
      · exact absurd h (by simp)
      · exact absurd h (by simp)
      · rename_i directory
        rw [directories l directory]
        simp only
        split at h
        · rename_i long
          rw [if_pos long]
        · rename_i short
          rw [if_neg short]
          split at h
          · rename_i isBack
            rw [if_pos isBack]
            exact ih h
          · rename_i forward
            rw [if_neg forward]
            exact ih h

section Same

variable {touched made : Location → Prop}

/-- Where a settled path leads only after some operations, nothing is before and after. -/
theorem Evolves.none_of_new (h : Evolves touched made tree tree') (sound : tree.IsSound)
    (settled : tree.IsSettled p) (spared : ¬ touched (tree.placeOf p))
    (old : ¬ made (tree.placeOf p)) (new : ∀ l, tree.resolve p ≠ .ok l)
    (found : tree'.resolve p = .ok l) : tree'.node? l = none := by
  have forward : back ∉ p.parts := settled.resolve_left fun ⟨l, before⟩ => new l before
  have place : l = tree.placeOf p := by rw [resolve_eq_placeOf found, h.placeOf]
  obtain ⟨named, followed⟩ := locate_eq_ok.mp (resolve_eq_ok.mp found)
  have start : tree'.startOf p = tree.startOf p := by rw [Tree.startOf, Tree.startOf, h.home]
  rw [start] at followed
  rw [place, h.kept _ spared old]
  cases before : tree.follow (tree.startOf p) p.parts with
  | ok m => exact absurd (resolve_eq_ok.mpr (locate_eq_ok.mpr ⟨named, before⟩)) (new m)
  | error e =>
      rw [Tree.placeOf, walk_of_forward forward]
      apply sound.none_of_follow forward before
      rintro rfl
      rw [follow_tooLong h.directories before] at followed
      exact absurd followed (by simp)

/-- A settled path leads to the same as before, if its place is spared. -/
theorem Evolves.found?_eq (h : Evolves touched made tree tree') (sound : tree.IsSound)
    (settled : tree.IsSettled p) (spared : ¬ touched (tree.placeOf p))
    (old : ¬ made (tree.placeOf p)) : tree'.found? p = tree.found? p := by
  unfold found?
  cases before : tree.resolve p with
  | ok l =>
      have place : l = tree.placeOf p := resolve_eq_placeOf before
      rw [h.resolve before]
      simp only
      rw [place]
      exact h.kept _ spared old
  | error e =>
      cases after : tree'.resolve p with
      | error e => rfl
      | ok l =>
          simp only
          apply h.none_of_new sound settled spared old _ after
          intro l same
          rw [before] at same
          exact absurd same (by simp)

/-- A path of which no name is too long. -/
def HasShortNames (p : Path) : Prop :=
  ∀ name ∈ p.parts, (name.flatMap Utf8.encodePoint).length ≤ nameLimit

/-- Names that can be followed are short. -/
theorem short_of_follow {names : List Text} {m : Location} (h : tree.follow l names = .ok m) :
    ∀ name ∈ names, (name.flatMap Utf8.encodePoint).length ≤ nameLimit := by
  induction names generalizing l with
  | nil => exact List.forall_mem_nil _
  | cons name rest ih =>
      obtain ⟨_, short, onward⟩ := follow_cons_ok.mp h
      exact List.forall_mem_cons.mpr ⟨short, ih onward⟩

/-- A path that leads somewhere has short names. -/
theorem hasShortNames_of_resolve (found : tree.resolve p = .ok l) : HasShortNames p :=
  short_of_follow (locate_eq_ok.mp (resolve_eq_ok.mp found)).2

theorem follow_ne_tooLong {names : List Text}
    (short : ∀ name ∈ names, (name.flatMap Utf8.encodePoint).length ≤ nameLimit) :
    tree.follow l names ≠ .error .nameTooLong := by
  induction names generalizing l with
  | nil => simp [follow]
  | cons name rest ih =>
      obtain ⟨first, others⟩ := List.forall_mem_cons.mp short
      rw [follow]
      split
      · simp
      · simp
      · rw [if_neg (by omega)]
        split
        · exact ih others
        · exact ih others

theorem lookup_of_resolve (found : tree.resolve p = .ok l) : tree.lookup p = .ok (tree.node? l) := by
  unfold lookup
  rw [resolve_eq_ok.mp found]

theorem resolve_of_lookup {node : Node} (h : tree.lookup p = .ok (some node)) :
    ∃ l, tree.resolve p = .ok l ∧ tree.node? l = some node := by
  unfold lookup at h
  split at h
  · exact absurd h (by simp)
  · rename_i l found
    exact ⟨l, resolve_eq_ok.mpr found, Except.ok.inj h⟩
  · exact absurd h (by simp)
  · exact absurd h (by simp)

/-- A path that cannot name a file is looked up alike everywhere. -/
theorem lookup_of_unnamed (unnamed : ¬ IsNamed p) (t u : Tree) : t.lookup p = u.lookup p := by
  unfold lookup
  rw [locate_same_of_unnamed unnamed t u]
  cases found : u.locate p with
  | error e => rfl
  | ok result =>
      cases result with
      | error e => cases e <;> rfl
      | ok l => exact absurd (locate_eq_ok.mp found).1 unnamed

/-- A path that can name a file leads to what is where its parts can be followed to. -/
theorem lookup_of_named (named : IsNamed p)
    (short : HasShortNames p) : tree.lookup p = .ok (tree.found? p) := by
  have notLong : tree.follow (tree.startOf p) p.parts ≠ .error .nameTooLong :=
    follow_ne_tooLong short
  unfold lookup found? resolve
  rw [locate_of_named named]
  cases followed : tree.follow (tree.startOf p) p.parts with
  | ok l => rfl
  | error e =>
      cases e with
      | nameTooLong => exact absurd followed notLong
      | _ => rfl

/-- A settled path without long names is looked up as before, if its place is spared. -/
theorem Evolves.lookup_eq (h : Evolves touched made tree tree') (sound : tree.IsSound)
    (settled : tree.IsSettled p) (short : HasShortNames p) (spared : ¬ touched (tree.placeOf p))
    (old : ¬ made (tree.placeOf p)) : tree'.lookup p = tree.lookup p := by
  by_cases named : IsNamed p
  · rw [lookup_of_named named short, lookup_of_named named short,
      h.found?_eq sound settled spared old]
  · exact lookup_of_unnamed named tree' tree

end Same

end ModulePackaging.Files.Tree
