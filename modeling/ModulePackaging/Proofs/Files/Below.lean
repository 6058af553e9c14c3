import ModulePackaging.Proofs.Files.Absolute
import ModulePackaging.Proofs.Files.Names

/-!
# Paths below a directory

A path below another goes on from it by plain names, none of which leads back. Its place is then the
place of the other or below it, whatever files are there. A path need not be below another for that:
names that lead back can be made up for by those behind them.
-/

namespace ModulePackaging

open Files Files.Tree

namespace Path

variable {dir outer p q : Path}

/-- A path that goes on from another by plain names. -/
def IsBelow (dir p : Path) : Prop :=
  ∃ names : List Text, (∀ name ∈ names, IsPlainName name) ∧ p = ⟨dir.anchor, dir.parts ++ names⟩

/-- A path whose place is that of another or below it, in all trees. -/
def Encloses (dir p : Path) : Prop := ∀ tree : Tree, tree.placeOf dir <+: tree.placeOf p

/-- A relative path of plain names leads below what it is joined to. -/
theorem isBelow_join (dir : Path) (relative : q.isAbsolute = false)
    (plain : ∀ name ∈ q.parts, IsPlainName name) : dir.IsBelow (dir / q) :=
  ⟨q.parts, plain, join_of_relative relative⟩

namespace IsBelow

/-- A path below another is the other with a relative path joined to it. -/
theorem exists_join (below : dir.IsBelow p) : ∃ q : Path, q.isAbsolute = false ∧ p = dir / q := by
  obtain ⟨names, _, rfl⟩ := below
  have relative : (⟨.relative, names⟩ : Path).isAbsolute = false := rfl
  exact ⟨_, relative, (join_of_relative relative).symm⟩

/-- What is below a path stays below it when both are joined to a third. -/
theorem join (below : dir.IsBelow p) (outer : Path) : (outer / dir).IsBelow (outer / p) := by
  obtain ⟨names, plain, rfl⟩ := below
  have same : (⟨dir.anchor, dir.parts ++ names⟩ : Path).isAbsolute = dir.isAbsolute := rfl
  refine ⟨names, plain, ?_⟩
  cases absolute : dir.isAbsolute with
  | true => rw [join_of_isAbsolute absolute, join_of_isAbsolute (same.trans absolute)]
  | false =>
      rw [join_of_relative absolute, join_of_relative (same.trans absolute), List.append_assoc]

theorem encloses (below : dir.IsBelow p) : dir.Encloses p := by
  obtain ⟨names, plain, rfl⟩ := below
  have forward : back ∉ names := fun member => (plain _ member).back rfl
  intro tree
  show walk (tree.startOf dir) dir.parts <+: walk (tree.startOf dir) (dir.parts ++ names)
  rw [walk_append, walk_of_forward forward]
  exact List.prefix_append _ _

end IsBelow

/-! ## Places -/

namespace Encloses

theorem refl (p : Path) : p.Encloses p := fun _ => List.prefix_rfl

theorem trans (first : outer.Encloses dir) (second : dir.Encloses p) : outer.Encloses p :=
  fun tree => (first tree).trans (second tree)

/-- A path that is joined to itself stays inside, if it is absolute or no name in it leads back. -/
theorem join_self (safe : dir.isAbsolute = true ∨ back ∉ dir.parts) : dir.Encloses (dir / dir) := by
  rcases Bool.eq_false_or_eq_true dir.isAbsolute with absolute | relative
  · rw [join_of_isAbsolute absolute]
    exact refl dir
  · have forward : back ∉ dir.parts := safe.resolve_left (by simp [relative])
    rw [join_of_relative relative]
    intro tree
    show walk (tree.startOf dir) dir.parts <+: walk (tree.startOf dir) (dir.parts ++ dir.parts)
    rw [walk_append, walk_of_forward forward (walk _ _)]
    exact List.prefix_append _ _

end Encloses

end Path

end ModulePackaging
