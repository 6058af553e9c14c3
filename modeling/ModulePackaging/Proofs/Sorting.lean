import Mathlib.Data.List.Nodup
import ModulePackaging.Text.Basic

/-!
# Sorted lists

What sorting keeps and what it brings about: the items stay the same, they come in order, and lists
with the same items of different keys are sorted alike.
-/

namespace ModulePackaging

section General

variable {α β : Type} {le : α → α → Bool}

/-- Inserting an item adds it and nothing else. -/
theorem insertBefore_perm (le : α → α → Bool) (a : α) (l : List α) :
    (insertBefore le a l).Perm (a :: l) := by
  induction l with
  | nil => exact List.Perm.refl _
  | cons b rest ih =>
      unfold insertBefore
      split
      · exact List.Perm.refl _
      · exact (ih.cons b).trans (List.Perm.swap a b rest)

/-- Sorting keeps the items. -/
theorem sortedBy_perm (le : α → α → Bool) (l : List α) : (sortedBy le l).Perm l := by
  induction l with
  | nil => exact List.Perm.refl _
  | cons a rest ih =>
      exact (insertBefore_perm le a _).trans (ih.cons a)

@[simp] theorem mem_sortedBy {a : α} {l : List α} : a ∈ sortedBy le l ↔ a ∈ l :=
  (sortedBy_perm le l).mem_iff

@[simp] theorem length_sortedBy (l : List α) : (sortedBy le l).length = l.length :=
  (sortedBy_perm le l).length_eq

/-- An item that is inserted into a list in order leaves it in order. -/
theorem insertBefore_pairwise (total : ∀ a b, le a b = true ∨ le b a = true)
    (trans : ∀ a b c, le a b = true → le b c = true → le a c = true) (a : α) {l : List α}
    (h : l.Pairwise fun a b => le a b = true) :
    (insertBefore le a l).Pairwise fun a b => le a b = true := by
  induction h with
  | nil => exact List.pairwise_singleton _ _
  | @cons b rest first others ih =>
      unfold insertBefore
      split
      · rename_i before
        refine List.Pairwise.cons ?_ (List.Pairwise.cons first others)
        intro c member
        rcases List.mem_cons.mp member with rfl | member
        · exact before
        · exact trans _ _ _ before (first c member)
      · rename_i behind
        refine List.Pairwise.cons ?_ ih
        intro c member
        rcases List.mem_cons.mp ((insertBefore_perm le a rest).mem_iff.mp member) with rfl | member
        · exact (total c b).resolve_left behind
        · exact first c member

/-- Sorting puts the items in order. -/
theorem sortedBy_pairwise (total : ∀ a b, le a b = true ∨ le b a = true)
    (trans : ∀ a b c, le a b = true → le b c = true → le a c = true) (l : List α) :
    (sortedBy le l).Pairwise fun a b => le a b = true := by
  induction l with
  | nil => exact List.Pairwise.nil
  | cons a rest ih => exact insertBefore_pairwise total trans a ih

/-- Sorting leaves a list in order as it is. -/
theorem sortedBy_of_pairwise {l : List α} (h : l.Pairwise fun a b => le a b = true) :
    sortedBy le l = l := by
  induction h with
  | nil => rfl
  | @cons a rest first _ ih =>
      show insertBefore le a (sortedBy le rest) = a :: rest
      rw [ih]
      cases rest with
      | nil => rfl
      | cons b rest => rw [insertBefore, if_pos (first b List.mem_cons_self)]

/-- Lists with the same items are sorted alike if no two of the items tie. -/
theorem sortedBy_eq_of_perm (total : ∀ a b, le a b = true ∨ le b a = true)
    (trans : ∀ a b c, le a b = true → le b c = true → le a c = true) {l m : List α}
    (same : l.Perm m)
    (apart : ∀ a b, a ∈ l → b ∈ l → le a b = true → le b a = true → a = b) :
    sortedBy le l = sortedBy le m := by
  refine List.Perm.eq_of_pairwise ?_ (sortedBy_pairwise total trans l)
    (sortedBy_pairwise total trans m)
    (((sortedBy_perm le l).trans same).trans (sortedBy_perm le m).symm)
  intro a b ha hb
  rw [mem_sortedBy] at ha hb
  exact apart a b ha (same.mem_iff.mpr hb)

theorem filter_insertBefore_of_false {p : α → Bool} {a : α} (out : p a = false) (l : List α) :
    (insertBefore le a l).filter p = l.filter p := by
  induction l with
  | nil => simp [insertBefore, out]
  | cons b rest ih =>
      unfold insertBefore
      split
      · rw [List.filter_cons_of_neg (by simp [out])]
      · rw [List.filter_cons, List.filter_cons, ih]

/-- What is put into a list in order comes before the same items if some others are left out. -/
theorem filter_insertBefore (trans : ∀ a b c, le a b = true → le b c = true → le a c = true)
    {p : α → Bool} {a : α} (kept : p a = true) {l : List α}
    (h : l.Pairwise fun a b => le a b = true) :
    (insertBefore le a l).filter p = insertBefore le a (l.filter p) := by
  induction h with
  | nil => simp [insertBefore, kept]
  | @cons b rest first others ih =>
      rw [insertBefore]
      by_cases before : le a b = true
      · -- All that is left stands behind `b`, so `a` still comes first.
        rw [if_pos before, List.filter_cons_of_pos kept]
        cases left : (b :: rest).filter p with
        | nil => rfl
        | cons c more =>
            have member : c ∈ b :: rest := List.mem_of_mem_filter (left ▸ List.mem_cons_self)
            have behind : le a c = true := by
              rcases List.mem_cons.mp member with rfl | member
              · exact before
              · exact trans _ _ _ before (first c member)
            rw [insertBefore, if_pos behind]
      · rw [if_neg before, List.filter_cons, ih, List.filter_cons]
        split
        · rw [insertBefore, if_neg before]
        · rfl

/-- Items that are left out do not change the order of the others. -/
theorem sortedBy_filter (total : ∀ a b, le a b = true ∨ le b a = true)
    (trans : ∀ a b c, le a b = true → le b c = true → le a c = true) (p : α → Bool) (l : List α) :
    sortedBy le (l.filter p) = (sortedBy le l).filter p := by
  induction l with
  | nil => rfl
  | cons a rest ih =>
      show _ = (insertBefore le a (sortedBy le rest)).filter p
      cases kept : p a with
      | true =>
          rw [filter_insertBefore trans kept (sortedBy_pairwise total trans rest), ← ih,
            List.filter_cons_of_pos kept]
          rfl
      | false =>
          rw [filter_insertBefore_of_false kept, ← ih,
            List.filter_cons_of_neg (by simp [kept])]

theorem insertBefore_of_none {a : α} {l : List α} (none : ∀ b ∈ l, le a b = false) :
    insertBefore le a l = l ++ [a] := by
  induction l with
  | nil => rfl
  | cons b rest ih =>
      rw [insertBefore, if_neg (by simp [none b]), ih fun c member =>
        none c (List.mem_cons_of_mem _ member)]
      rfl

/-- Sorting turns around a list in which no item may precede a later one. -/
theorem sortedBy_of_descending {l : List α} (h : l.Pairwise fun a b => le a b = false) :
    sortedBy le l = l.reverse := by
  induction h with
  | nil => rfl
  | @cons a rest first _ ih =>
      show insertBefore le a (sortedBy le rest) = _
      rw [ih, insertBefore_of_none fun b member => first b (List.mem_reverse.mp member),
        List.reverse_cons]

theorem insertBefore_map (f : β → α) (b : β) (l : List β) :
    insertBefore le (f b) (l.map f) = (insertBefore (fun a b => le (f a) (f b)) b l).map f := by
  induction l with
  | nil => rfl
  | cons c rest ih =>
      simp only [List.map_cons, insertBefore]
      split
      · rfl
      · rw [ih, List.map_cons]

/-- Sorting images is sorting by the images. -/
theorem sortedBy_map (f : β → α) (l : List β) :
    sortedBy le (l.map f) = (sortedBy (fun a b => le (f a) (f b)) l).map f := by
  induction l with
  | nil => rfl
  | cons b rest ih =>
      show insertBefore le (f b) (sortedBy le (rest.map f)) = _
      rw [ih, insertBefore_map]
      rfl

end General

/-! ## The order of texts -/

namespace Text

theorem le_total (a b : Text) : a ≤ b ∨ b ≤ a := List.le_total a b

theorem le_trans {a b c : Text} (h : a ≤ b) (k : b ≤ c) : a ≤ c := List.le_trans h k

theorem le_antisymm {a b : Text} (h : a ≤ b) (k : b ≤ a) : a = b := List.le_antisymm h k

end Text

section ByKey

variable {α : Type} (key : α → Text)

theorem keyOrder_total (a b : α) :
    decide (key a ≤ key b) = true ∨ decide (key b ≤ key a) = true := by
  simpa using Text.le_total (key a) (key b)

theorem keyOrder_trans (a b c : α) (h : decide (key a ≤ key b) = true)
    (k : decide (key b ≤ key c) = true) : decide (key a ≤ key c) = true := by
  simp only [decide_eq_true_eq] at h k ⊢
  exact Text.le_trans h k

/-- Lists with the same items of different keys are sorted alike by the keys. -/
theorem sortedByKey_eq_of_perm {l m : List α} (same : l.Perm m) (distinct : (l.map key).Nodup) :
    sortedBy (fun a b => decide (key a ≤ key b)) l =
      sortedBy (fun a b => decide (key a ≤ key b)) m := by
  apply sortedBy_eq_of_perm (keyOrder_total key) (keyOrder_trans key) same
  intro a b ha hb h k
  simp only [decide_eq_true_eq] at h k
  exact List.inj_on_of_nodup_map distinct ha hb (Text.le_antisymm h k)

/-- Items of different keys are in strictly ascending order once they are sorted by them. -/
theorem sortedByKey_ascending {l : List α} (distinct : (l.map key).Nodup) :
    ((sortedBy (fun a b => decide (key a ≤ key b)) l).map key).Pairwise (· < ·) := by
  have sorted := sortedBy_pairwise (keyOrder_total key) (keyOrder_trans key) l
  have apart : ((sortedBy (fun a b => decide (key a ≤ key b)) l).map key).Nodup :=
    ((sortedBy_perm _ l).map key).nodup_iff.mpr distinct
  rw [List.Nodup, List.pairwise_map] at apart
  rw [List.pairwise_map]
  refine (sorted.and apart).imp fun {a b} both => ?_
  exact Std.lt_of_le_of_ne (of_decide_eq_true both.1) both.2

end ByKey

end ModulePackaging
