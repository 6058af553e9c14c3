import ModulePackaging.Proofs.Files.Alike

/-!
# Absolute paths

A relative path and the path that starts at the root and goes through the home directory lead to the
same file, if both can name one. Joining and going to the parent commute with making a path
absolute.
-/

namespace ModulePackaging

open Files Files.Tree

namespace Path

variable {home : Location} {p q : Path}

/-- The path from the root that leads where a path leads from a home directory. -/
def absolute (home : Location) (p : Path) : Path := (⟨.root, home⟩ : Path) / p

theorem absolute_of_isAbsolute (h : p.isAbsolute = true) : p.absolute home = p := if_pos h

theorem absolute_of_relative (h : p.isAbsolute = false) :
    p.absolute home = ⟨.root, home ++ p.parts⟩ := if_neg (by simp [h])

theorem isAbsolute_absolute (home : Location) (p : Path) : (p.absolute home).isAbsolute = true := by
  cases h : p.isAbsolute with
  | true => rwa [absolute_of_isAbsolute h]
  | false =>
      rw [absolute_of_relative h]
      rfl

theorem join_of_isAbsolute (h : q.isAbsolute = true) : p / q = q := if_pos h

theorem join_of_relative (h : q.isAbsolute = false) : p / q = ⟨p.anchor, p.parts ++ q.parts⟩ :=
  if_neg (by simp [h])

/-- A path is itself from the current directory. -/
theorem join_current (p : Path) : (⟨.relative, []⟩ : Path) / p = p := by
  cases h : p.isAbsolute with
  | true => exact join_of_isAbsolute h
  | false =>
      rw [join_of_relative h, List.nil_append]
      obtain ⟨anchor, parts⟩ := p
      have relative : anchor = .relative := by simpa [isAbsolute] using h
      rw [relative]

/-- What is joined to a path is joined to the absolute path. -/
theorem absolute_join (p q : Path) : (p / q).absolute home = p.absolute home / q := by
  cases q_absolute : q.isAbsolute with
  | true =>
      rw [join_of_isAbsolute q_absolute, join_of_isAbsolute q_absolute,
        absolute_of_isAbsolute q_absolute]
  | false =>
      rw [join_of_relative q_absolute, join_of_relative q_absolute]
      cases p_absolute : p.isAbsolute with
      | true =>
          rw [absolute_of_isAbsolute p_absolute]
          exact absolute_of_isAbsolute p_absolute
      | false =>
          rw [absolute_of_relative p_absolute, List.append_assoc]
          exact absolute_of_relative (p := ⟨p.anchor, p.parts ++ q.parts⟩) p_absolute

/-- The parent of a path with names is made absolute as the path is. -/
theorem absolute_parent (some : p.parts ≠ []) :
    p.parent.absolute home = (p.absolute home).parent := by
  cases p_absolute : p.isAbsolute with
  | true =>
      rw [absolute_of_isAbsolute p_absolute, absolute_of_isAbsolute (p := p.parent) p_absolute]
  | false =>
      rw [absolute_of_relative p_absolute, absolute_of_relative (p := p.parent) p_absolute, parent,
        parent, List.dropLast_append_of_ne_nil some]

end Path

namespace Files.Tree

variable {tree : Tree} {p : Path} {l : Location} {node : Node}

/-- A tree with a home that a program can work in: a directory to which the names lead from the
root, unless nothing is there any more. -/
structure IsRooted (tree : Tree) : Prop where
  forward : back ∉ tree.home
  leads : tree.node? tree.home ≠ none →
    tree.node? tree.home = some .directory ∧ tree.follow [] tree.home = .ok tree.home

instance (p : Path) : Decidable (IsNamed p) :=
  decidable_of_iff (passes (pathBytes p) fun bytes => decide (bytes.length ≤ pathLimit))
    (by unfold IsNamed passes; cases pathBytes p <;> simp)

/-- A path that can name a file exactly if it can when it is made absolute: it is not too long. -/
def IsNameable (home : Location) (p : Path) : Prop := IsNamed p ↔ IsNamed (p.absolute home)

instance (home : Location) (p : Path) : Decidable (IsNameable home p) :=
  inferInstanceAs (Decidable (_ ↔ _))

/-- A path leads to something where the absolute path does. -/
theorem resolve_absolute (rooted : tree.IsRooted) (named : IsNameable tree.home p)
    (there : tree.node? l ≠ none) :
    tree.resolve p = .ok l ↔ tree.resolve (p.absolute tree.home) = .ok l := by
  cases p_absolute : p.isAbsolute with
  | true => rw [Path.absolute_of_isAbsolute p_absolute]
  | false =>
      rw [resolve_eq_ok, resolve_eq_ok, locate_eq_ok, locate_eq_ok,
        ← show IsNamed p ↔ _ from named, startOf, startOf, Path.absolute_of_relative p_absolute,
        p_absolute, if_neg (by simp), if_pos (show Path.isAbsolute _ = true from rfl)]
      refine and_congr_right fun _ => ⟨fun followed => ?_, fun followed => ?_⟩
      · have home : tree.node? tree.home ≠ none := by
          cases parts : p.parts with
          | nil =>
              rw [parts] at followed
              obtain rfl := Except.ok.inj followed
              exact there
          | cons name rest =>
              rw [parts] at followed
              simp [(follow_cons_ok.mp followed).1]
        rw [follow_append_of_ok (rooted.leads home).2]
        exact followed
      · obtain ⟨m, first, second⟩ := follow_append_ok.mp followed
        have place := follow_eq_walk first
        rw [walk_of_forward rooted.forward, List.nil_append] at place
        exact place ▸ second

theorem lookup_eq_some :
    tree.lookup p = .ok (some node) ↔ ∃ l, tree.resolve p = .ok l ∧ tree.node? l = some node := by
  simp only [resolve_eq_ok]
  unfold lookup
  cases tree.locate p with
  | error e => simp
  | ok reached =>
      cases reached with
      | error errno => cases errno <;> simp
      | ok l => simp

/-- Something is found at a path exactly if it is found at the absolute path. -/
theorem lookup_absolute (rooted : tree.IsRooted) (named : IsNameable tree.home p) :
    tree.lookup p = .ok (some node) ↔ tree.lookup (p.absolute tree.home) = .ok (some node) := by
  rw [lookup_eq_some, lookup_eq_some]
  refine exists_congr fun l => and_congr_left fun there => ?_
  exact resolve_absolute rooted named (by simp [there])

theorem read_absolute (rooted : tree.IsRooted) (named : IsNameable tree.home p) {content : Bytes} :
    tree.read p = .ok content ↔ tree.read (p.absolute tree.home) = .ok content := by
  rw [read_eq_ok, read_eq_ok]
  refine exists_congr fun l => exists_congr fun mode => and_congr_left fun there => ?_
  exact resolve_absolute rooted named (by simp [there])

theorem isFile_eq_true :
    tree.isFile p = .ok true ↔ ∃ content mode, tree.lookup p = .ok (some (.file content mode)) := by
  unfold isFile
  rcases tree.lookup p with e | _ | _ | _ <;> simp [bind, Except.bind, pure, Except.pure]

theorem isDirectory_eq_true :
    tree.isDirectory p = .ok true ↔ tree.lookup p = .ok (some .directory) := by
  unfold isDirectory
  rcases tree.lookup p with e | _ | _ | _ <;> simp [bind, Except.bind, pure, Except.pure]

theorem isFile_absolute (rooted : tree.IsRooted) (named : IsNameable tree.home p) :
    tree.isFile p = .ok true ↔ tree.isFile (p.absolute tree.home) = .ok true := by
  rw [isFile_eq_true, isFile_eq_true]
  exact exists_congr fun _ => exists_congr fun _ => lookup_absolute rooted named

theorem isDirectory_absolute (rooted : tree.IsRooted) (named : IsNameable tree.home p) :
    tree.isDirectory p = .ok true ↔ tree.isDirectory (p.absolute tree.home) = .ok true := by
  rw [isDirectory_eq_true, isDirectory_eq_true]
  exact lookup_absolute rooted named

end Files.Tree

end ModulePackaging
