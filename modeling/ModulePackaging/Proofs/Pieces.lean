import Mathlib.Data.List.DropRight
import Mathlib.Data.List.TakeWhile
import ModulePackaging.Text.Blank

/-!
# Texts in pieces

Taking a text apart at its separators undoes putting pieces together, as long as the pieces hold no
separator; and a text whose ends are no blanks stays as it is when it is trimmed. The first and the
last place of a sign divide a text in one way.
-/

namespace ModulePackaging.Text

variable {ends : CodePoint → Bool}

/-- A text without separators is one piece. -/
theorem splitWhere_of_none {piece : Text} (none : ∀ c ∈ piece, ends c = false) :
    splitWhere ends piece = [piece] := by
  induction piece with
  | nil => rfl
  | cons c rest ih =>
      rw [splitWhere, if_neg (by simp [none c List.mem_cons_self]),
        ih fun d member => none d (List.mem_cons_of_mem _ member)]

/-- The first separator ends the first piece. -/
theorem splitWhere_append {piece : Text} (none : ∀ c ∈ piece, ends c = false) {sep : CodePoint}
    (last : ends sep = true) (rest : Text) :
    splitWhere ends (piece ++ sep :: rest) = piece :: splitWhere ends rest := by
  induction piece with
  | nil => rw [List.nil_append, splitWhere, if_pos last]
  | cons c piece ih =>
      rw [List.cons_append, splitWhere, if_neg (by simp [none c List.mem_cons_self]),
        ih fun d member => none d (List.mem_cons_of_mem _ member)]

/-- Pieces without the separator are found again when they are put together with it. -/
theorem splitOn_joined (sep : CodePoint) (pieces : List Text) (some : pieces ≠ [])
    (none : ∀ piece ∈ pieces, ∀ c ∈ piece, c ≠ sep) :
    splitOn sep (joined [sep] pieces) = pieces := by
  have apart : ∀ piece ∈ pieces, ∀ c ∈ piece, (c == sep) = false := by
    intro piece member c inside
    exact beq_eq_false_iff_ne.mpr (none piece member c inside)
  clear none
  induction pieces with
  | nil => exact absurd rfl some
  | cons piece rest ih =>
      cases rest with
      | nil => exact splitWhere_of_none (apart piece List.mem_cons_self)
      | cons next others =>
          rw [joined, splitOn, List.append_assoc, List.singleton_append,
            splitWhere_append (apart piece List.mem_cons_self) (beq_self_eq_true sep)]
          · congr 1
            exact ih (List.cons_ne_nil _ _) fun p member =>
              apart p (List.mem_cons_of_mem _ member)
          · exact List.cons_ne_nil _ _

theorem splitOn_ne_nil (sep : CodePoint) (t : Text) : splitOn sep t ≠ [] := by
  unfold splitOn
  induction t with
  | nil => exact List.cons_ne_nil _ _
  | cons c rest ih =>
      rw [splitWhere]
      split
      · exact List.cons_ne_nil _ _
      · split
        · exact List.cons_ne_nil _ _
        · exact List.cons_ne_nil _ _

/-- The pieces of a text make up the text again. -/
theorem joined_splitOn (sep : CodePoint) (t : Text) : joined [sep] (splitOn sep t) = t := by
  unfold splitOn
  induction t with
  | nil => rfl
  | cons c rest ih =>
      obtain ⟨first, others, pieces⟩ := List.exists_cons_of_ne_nil (splitOn_ne_nil sep rest)
      rw [splitOn] at pieces
      rw [pieces] at ih
      rw [splitWhere, pieces]
      by_cases here : (c == sep) = true
      · rw [if_pos here, joined, ih, beq_iff_eq.mp here]
        · rfl
        · exact List.cons_ne_nil _ _
      · rw [if_neg here, ← ih]
        cases others with
        | nil => rfl
        | cons next others => rfl

/-- What stands in front of a text without the separator goes into the first piece. -/
theorem splitOn_append_of_none {sep : CodePoint} {front t first : Text} {others : List Text}
    (none : sep ∉ front) (pieces : splitOn sep t = first :: others) :
    splitOn sep (front ++ t) = (front ++ first) :: others := by
  unfold splitOn at pieces ⊢
  induction front with
  | nil => exact pieces
  | cons c front ih =>
      obtain ⟨here, later⟩ := not_or.mp (mt List.mem_cons.mpr none)
      rw [List.cons_append, splitWhere, if_neg (by simpa using Ne.symm here), ih later]
      rfl

/-- A separator parts the pieces in front of it from those behind it. -/
theorem splitOn_append_cons (sep : CodePoint) (front rest : Text) :
    splitOn sep (front ++ sep :: rest) = splitOn sep front ++ splitOn sep rest := by
  unfold splitOn
  induction front with
  | nil =>
      show splitWhere _ (sep :: rest) = [] :: splitWhere _ rest
      rw [splitWhere, if_pos (beq_self_eq_true sep)]
  | cons c front ih =>
      obtain ⟨first, others, pieces⟩ := List.exists_cons_of_ne_nil (splitOn_ne_nil sep front)
      rw [splitOn] at pieces
      rw [List.cons_append, splitWhere, splitWhere, ih, pieces]
      split
      · rfl
      · rfl

theorem splitOn_of_notMem {sep : CodePoint} {t : Text} (none : sep ∉ t) : splitOn sep t = [t] := by
  apply splitWhere_of_none
  intro c member
  exact beq_eq_false_iff_ne.mpr (ne_of_mem_of_not_mem member none)

/-- A text is one piece exactly if the separator is not in it. -/
theorem length_splitOn_eq_one_iff {sep : CodePoint} {t : Text} :
    (splitOn sep t).length = 1 ↔ sep ∉ t := by
  constructor
  · intro single inside
    obtain ⟨front, behind, rfl⟩ := List.append_of_mem inside
    have before := List.length_pos_of_ne_nil (splitOn_ne_nil sep front)
    have after := List.length_pos_of_ne_nil (splitOn_ne_nil sep behind)
    rw [splitOn_append_cons, List.length_append] at single
    omega
  · intro none
    rw [splitOn_of_notMem none, List.length_singleton]

/-- What is in a piece is in the text. -/
theorem mem_of_mem_splitOn {sep : CodePoint} {t piece : Text} (h : piece ∈ splitOn sep t)
    {c : CodePoint} (inside : c ∈ piece) : c ∈ t := by
  unfold splitOn at h
  induction t generalizing piece with
  | nil =>
      obtain rfl := List.mem_singleton.mp h
      exact absurd inside List.not_mem_nil
  | cons d rest ih =>
      rw [splitWhere] at h
      split at h
      · rcases List.mem_cons.mp h with rfl | later
        · exact absurd inside List.not_mem_nil
        · exact List.mem_cons_of_mem _ (ih later inside)
      · split at h
        · obtain rfl := List.mem_singleton.mp h
          exact List.mem_cons.mpr (.inl (List.mem_singleton.mp inside))
        · rename_i first others pieces
          rcases List.mem_cons.mp h with rfl | later
          · rcases List.mem_cons.mp inside with rfl | inside
            · exact List.mem_cons_self
            · exact List.mem_cons_of_mem _ (ih (pieces ▸ List.mem_cons_self) inside)
          · exact List.mem_cons_of_mem _ (ih (pieces ▸ List.mem_cons_of_mem _ later) inside)

/-- What holds of all of a text put together holds of its pieces and of the separator. -/
theorem mem_joined {sep : Text} {pieces : List Text} {c : CodePoint} (h : c ∈ joined sep pieces) :
    c ∈ sep ∨ ∃ piece ∈ pieces, c ∈ piece := by
  induction pieces with
  | nil => exact absurd h List.not_mem_nil
  | cons piece rest ih =>
      cases rest with
      | nil => exact Or.inr ⟨piece, List.mem_cons_self, h⟩
      | cons next others =>
          rw [joined, List.mem_append, List.mem_append] at h
          · rcases h with (h | h) | h
            · exact Or.inr ⟨piece, List.mem_cons_self, h⟩
            · exact Or.inl h
            · rcases ih h with h | ⟨p, member, h⟩
              · exact Or.inl h
              · exact Or.inr ⟨p, List.mem_cons_of_mem _ member, h⟩
          · exact List.cons_ne_nil _ _

/-- Trimming takes blanks from the ends of a text. -/
theorem exists_trimmed (t : Text) : ∃ left right, t = left ++ t.trimmed ++ right ∧
    (∀ c ∈ left, c.isBlank = true) ∧ ∀ c ∈ right, c.isBlank = true := by
  refine ⟨t.takeWhile CodePoint.isBlank,
    (t.trimmedStart.reverse.takeWhile CodePoint.isBlank).reverse, ?_, ?_, ?_⟩
  · rw [trimmed, trimmedEnd, List.append_assoc, ← List.reverse_append,
      List.takeWhile_append_dropWhile, List.reverse_reverse, trimmedStart,
      List.takeWhile_append_dropWhile]
  · exact fun c member => List.mem_takeWhile_imp member
  · exact fun c member => List.mem_takeWhile_imp (List.mem_reverse.mp member)

/-- A text without blanks stays as it is when it is trimmed. -/
theorem trimmed_of_none {t : Text} (none : ∀ c ∈ t, c.isBlank = false) : t.trimmed = t := by
  have keep : ∀ u : Text, (∀ c ∈ u, c.isBlank = false) → u.dropWhile CodePoint.isBlank = u := by
    intro u none
    cases u with
    | nil => rfl
    | cons c rest => rw [List.dropWhile_cons_of_neg (by simp [none c List.mem_cons_self])]
  rw [trimmed, trimmedStart, keep t none, trimmedEnd,
    keep t.reverse (fun c member => none c (List.mem_reverse.mp member)), List.reverse_reverse]

/-- Trimming what is trimmed changes nothing. -/
@[simp] theorem trimmed_trimmed (t : Text) : t.trimmed.trimmed = t.trimmed := by
  have start : t.trimmed.trimmedStart = t.trimmed := by
    -- what is left at the end of the trimmed start begins as that does, with no blank
    unfold trimmed trimmedEnd
    cases kept : t.trimmedStart.reverse.dropWhile CodePoint.isBlank |>.reverse with
    | nil => rfl
    | cons c rest =>
        have front : c :: rest <+: t.trimmedStart := by
          rw [← kept, ← List.reverse_suffix, List.reverse_reverse]
          exact List.dropWhile_suffix _
        obtain ⟨more, form⟩ := front
        have first : ¬ c.isBlank = true := by
          have none := List.head?_dropWhile_not CodePoint.isBlank t
          rw [← trimmedStart, ← form] at none
          simpa using none
        exact List.dropWhile_cons_of_neg first
  rw [trimmed, start]
  unfold trimmed trimmedEnd
  rw [List.reverse_reverse, List.dropWhile_idempotent CodePoint.isBlank]

/-- Only a text of blanks is trimmed to nothing. -/
theorem trimmed_eq_nil_iff {t : Text} : t.trimmed = [] ↔ ∀ c ∈ t, c.isBlank = true := by
  constructor
  · intro none
    obtain ⟨left, right, form, before, after⟩ := exists_trimmed t
    rw [none, List.append_nil] at form
    intro c inside
    rcases List.mem_append.mp (form ▸ inside) with inside | inside
    · exact before c inside
    · exact after c inside
  · intro blank
    have start : t.trimmedStart = [] := List.dropWhile_eq_nil_iff.mpr blank
    rw [trimmed, start]
    rfl

/-! ## Places of a sign -/

variable {c : CodePoint} {front rest front' rest' : Text}

/-- What stands behind the last place of a sign determines what stands before it. -/
theorem eq_of_append_cons (h : front ++ c :: rest = front' ++ c :: rest') (none : c ∉ rest)
    (none' : c ∉ rest') : front = front' := by
  rcases List.append_eq_append_iff.mp h with ⟨more, rfl, split⟩ | ⟨more, rfl, split⟩
  · cases more with
    | nil => simp
    | cons d more =>
        obtain ⟨_, inside⟩ := List.cons_eq_cons.mp split
        exact absurd (inside ▸ by simp) none
  · cases more with
    | nil => simp
    | cons d more =>
        obtain ⟨_, inside⟩ := List.cons_eq_cons.mp split
        exact absurd (inside ▸ by simp) none'

/-- What stands in front of the first place of a sign, and behind it. -/
theorem append_cons_inj (h : front ++ c :: rest = front' ++ c :: rest') (none : c ∉ front)
    (none' : c ∉ front') : front = front' ∧ rest = rest' := by
  have turned : rest.reverse ++ c :: front.reverse = rest'.reverse ++ c :: front'.reverse := by
    simpa using congrArg List.reverse h
  obtain rfl := List.reverse_inj.mp (eq_of_append_cons turned (by simpa) (by simpa))
  exact ⟨List.append_cancel_right h, rfl⟩

end ModulePackaging.Text
