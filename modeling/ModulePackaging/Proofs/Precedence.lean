import Mathlib.Data.List.Induction
import Mathlib.Data.List.Lex
import Mathlib.Data.Prod.Lex
import Mathlib.Data.Sum.Order
import Mathlib.Order.Compare
import Mathlib.Order.Fin.Basic
import Mathlib.Order.WithBot
import ModulePackaging.Proofs.Versions
import ModulePackaging.Version.Order

/-!
# The precedence of versions

Where a version stands in a linear order: its numbers first, a release above its pre-releases, and
pre-releases identifier by identifier, numbers by value and below words. Versions of the standard
grammar are compared as they stand there, unless a number of more than 4300 digits is in the way. In
a wider grammar this fails: numbers with digits of several scripts have one value and differ.
-/

namespace ModulePackaging

open Ordering

/-! ## Comparing in linear orders -/

section Comparison

variable {α β : Type} [LinearOrder α] [LinearOrder β] {x y : α}

/-- How two items of a linear order compare. -/
def comparison (x y : α) : Ordering := cmp x y

theorem comparison_compares (x y : α) : (comparison x y).Compares x y := cmp_compares x y

theorem comparison_eq_lt : comparison x y = .lt ↔ x < y := (comparison_compares x y).eq_lt

theorem comparison_eq_eq : comparison x y = .eq ↔ x = y := (comparison_compares x y).eq_eq

theorem comparison_eq_gt : comparison x y = .gt ↔ y < x := (comparison_compares x y).eq_gt

@[simp] theorem comparison_self (x : α) : comparison x x = .eq := comparison_eq_eq.mpr rfl

/-- Pairs are compared by what is in front, and by the rest if that is the same. -/
theorem comparison_toLex (x y : α) (s t : β) :
    comparison (toLex (x, s)) (toLex (y, t)) = (comparison x y).then (comparison s t) := by
  rcases lt_trichotomy x y with less | rfl | more
  · rw [comparison_eq_lt.mpr less]
    exact comparison_eq_lt.mpr (Prod.Lex.toLex_lt_toLex.mpr (.inl less))
  · rw [comparison_self]
    rcases lt_trichotomy s t with less | rfl | more
    · rw [comparison_eq_lt.mpr less]
      exact comparison_eq_lt.mpr (Prod.Lex.toLex_lt_toLex.mpr (.inr ⟨rfl, less⟩))
    · rw [comparison_self, comparison_self]
      rfl
    · rw [comparison_eq_gt.mpr more]
      exact comparison_eq_gt.mpr (Prod.Lex.toLex_lt_toLex.mpr (.inr ⟨rfl, more⟩))
  · rw [comparison_eq_gt.mpr more]
    exact comparison_eq_gt.mpr (Prod.Lex.toLex_lt_toLex.mpr (.inl more))

/-- Lists are compared by their first items, and by the rest if those are the same. -/
theorem comparison_cons (x y : α) (xs ys : List α) :
    comparison (x :: xs) (y :: ys) = (comparison x y).then (comparison xs ys) := by
  rcases lt_trichotomy x y with less | rfl | more
  · rw [comparison_eq_lt.mpr less]
    exact comparison_eq_lt.mpr (List.Lex.rel less)
  · rw [comparison_self]
    rcases lt_trichotomy xs ys with less | rfl | more
    · rw [comparison_eq_lt.mpr less]
      exact comparison_eq_lt.mpr (List.Lex.cons less)
    · rw [comparison_self, comparison_self]
      rfl
    · rw [comparison_eq_gt.mpr more]
      exact comparison_eq_gt.mpr (List.Lex.cons more)
  · rw [comparison_eq_gt.mpr more]
    exact comparison_eq_gt.mpr (List.Lex.rel more)

theorem comparison_nat (m n : Nat) : compare m n = comparison m n := by
  rcases lt_trichotomy m n with less | rfl | more
  · rw [comparison_eq_lt.mpr less, Nat.compare_eq_lt.mpr less]
  · rw [comparison_self, Nat.compare_eq_eq.mpr rfl]
  · rw [comparison_eq_gt.mpr more, Nat.compare_eq_gt.mpr more]

end Comparison

/-! ## The value of a numeral -/

namespace Text

/-- The number that ASCII digits stand for. -/
def numeral (t : Text) : Nat := Decimal.ofDigits (t.map fun c => c.val - 0x30)

theorem numeral_concat (t : Text) (c : CodePoint) :
    numeral (t ++ [c]) = 10 * t.numeral + (c.val - 0x30) := by
  rw [numeral, List.map_append, List.map_singleton, Decimal.ofDigits_concat, numeral]

theorem digit_of_isAsciiDigit {c : CodePoint} (h : c.isAsciiDigit = true) :
    digit (c.val - 0x30) = c := by
  simp only [CodePoint.isAsciiDigit, Bool.and_eq_true, decide_eq_true_eq] at h
  apply Fin.ext
  rw [val_digit (by omega)]
  omega

/-- Digits that do not begin with a zero have a positive value. -/
theorem numeral_pos {c : CodePoint} (first : 0x30 < c.val) (rest : Text) :
    0 < numeral (c :: rest) := by
  induction rest using List.reverseRecOn with
  | nil =>
      show 0 < 10 * 0 + (c.val - 0x30)
      omega
  | append_singleton rest last ih =>
      rw [← List.cons_append, numeral_concat]
      omega

/-- ASCII digits that do not begin with a zero are what their value is written with. -/
theorem ofNat_numeral_cons {c : CodePoint} (first : 0x30 < c.val) {rest : Text}
    (digits : ∀ d ∈ c :: rest, d.isAsciiDigit = true) :
    ofNat (numeral (c :: rest)) = c :: rest := by
  -- A number's text is built from its last digit, so the induction is on the end of the text.
  induction rest using List.reverseRecOn with
  | nil =>
      have here := digits c List.mem_cons_self
      have value : numeral [c] = c.val - 0x30 := Nat.zero_add _
      have small : c.val - 0x30 < 10 := by
        simp only [CodePoint.isAsciiDigit, Bool.and_eq_true, decide_eq_true_eq] at here
        omega
      rw [value, ofNat_of_lt small, digit_of_isAsciiDigit here]
  | append_singleton rest last ih =>
      rw [← List.cons_append] at digits ⊢
      have here := digits last (by simp)
      have others := ih fun d member => digits d (List.mem_append_left _ member)
      have positive := numeral_pos first rest
      have small : last.val - 0x30 < 10 := by
        simp only [CodePoint.isAsciiDigit, Bool.and_eq_true, decide_eq_true_eq] at here
        omega
      rw [numeral_concat, ofNat_of_le (by omega)]
      rw [show (10 * numeral (c :: rest) + (last.val - 0x30)) / 10 = numeral (c :: rest) by omega,
        show (10 * numeral (c :: rest) + (last.val - 0x30)) % 10 = last.val - 0x30 by omega, others,
        digit_of_isAsciiDigit here]

/-- A numeral of ASCII digits is what its value is written with. -/
theorem ofNat_numeral {t : Text} (number : Version.isNumber t = true)
    (digits : ∀ c ∈ t, c.isAsciiDigit = true) : ofNat t.numeral = t := by
  cases t with
  | nil => exact absurd number (by decide)
  | cons c rest =>
      rw [Version.isNumber] at number
      split at number
      · rename_i zero
        rw [zero, List.isEmpty_iff.mp number]
        decide
      · rename_i nonzero
        apply ofNat_numeral_cons _ digits
        have here := digits c List.mem_cons_self
        simp only [CodePoint.isAsciiDigit, Bool.and_eq_true, decide_eq_true_eq] at here
        have other : c.val ≠ 0x30 := fun same => nonzero (Fin.ext same)
        omega

/-- Reading ASCII digits gives their value, unless they are too many. -/
theorem natural_of_digits {t : Text} (some : t ≠ []) (digits : ∀ c ∈ t, c.isAsciiDigit = true) :
    Decimal.natural t =
      if t.length > Decimal.digitLimit then .error (.tooLong t.length) else .ok t.numeral := by
  have values : t.mapM CodePoint.decimalValue? = .some (t.map fun c => c.val - 0x30) :=
    mapM_eq_pure fun c member => CodePoint.decimalValue?_of_isAsciiDigit (digits c member)
  unfold Decimal.natural numeral
  rw [values]
  cases form : t.map fun c => c.val - 0x30 with
  | nil => exact absurd (List.map_eq_nil_iff.mp form) some
  | cons d rest =>
      have size := congrArg List.length form
      rw [List.length_map] at size
      simp only [size]

end Text

/-! ## Standard versions and where they stand -/

namespace Version

/-- An identifier of the standard grammar: a word, or a number in ASCII digits. -/
structure IsStandardIdentifier (t : Text) : Prop where
  passes : isPrereleaseIdentifier t = true
  digits : t.isDigits = true → ∀ c ∈ t, c.isAsciiDigit = true

/-- A version whose pre-release is made of such identifiers. -/
def IsStandard (v : Version) : Prop := ∀ t ∈ v.prerelease, IsStandardIdentifier t

instance (t : Text) : Decidable (IsStandardIdentifier t) :=
  decidable_of_iff (isPrereleaseIdentifier t = true ∧
      (t.isDigits = true → t.all CodePoint.isAsciiDigit = true))
    ⟨fun h => ⟨h.1, fun digits => List.all_eq_true.mp (h.2 digits)⟩,
      fun h => ⟨h.passes, fun digits => List.all_eq_true.mpr (h.digits digits)⟩⟩

instance (v : Version) : Decidable v.IsStandard :=
  inferInstanceAs (Decidable (∀ t ∈ v.prerelease, IsStandardIdentifier t))

/-- Where an identifier stands: numbers by value, and words above them. -/
def identifierRank (t : Text) : ℕ ⊕ₗ Text :=
  if t.isDigits then toLex (.inl t.numeral) else toLex (.inr t)

/-- The order that versions stand in. -/
def Precedence : Type := (ℕ ×ₗ ℕ ×ₗ ℕ) ×ₗ WithTop (List (ℕ ⊕ₗ Text))

instance : LinearOrder Precedence :=
  inferInstanceAs (LinearOrder ((ℕ ×ₗ ℕ ×ₗ ℕ) ×ₗ WithTop (List (ℕ ⊕ₗ Text))))

/-- Where the numbers of a version stand. -/
def corePlace (v : Version) : ℕ ×ₗ ℕ ×ₗ ℕ := toLex (v.major, toLex (v.minor, v.patch))

/-- Where a pre-release stands: a release is above all. -/
def prereleasePlace : List Text → WithTop (List (ℕ ⊕ₗ Text))
  | [] => ⊤
  | t :: rest => ((t :: rest).map identifierRank : List (ℕ ⊕ₗ Text))

/-- Where a version stands. -/
def precedence (v : Version) : Precedence := toLex (v.corePlace, prereleasePlace v.prerelease)

/-- The refusal to read one of some identifiers, because it has too many digits. -/
def IsTooLong (identifiers : List Text) (e : VersionError) : Prop :=
  ∃ t ∈ identifiers, Decimal.digitLimit < t.length ∧ e = .number (.tooLong t.length)

theorem IsTooLong.mono {some more : List Text} {e : VersionError} (h : IsTooLong some e)
    (wider : some ⊆ more) : IsTooLong more e := by
  obtain ⟨t, member, long, rfl⟩ := h
  exact ⟨t, wider member, long, rfl⟩

/-! ## Comparing identifiers -/

/-- No letter is a digit of any script, nor a figure. -/
theorem isDigit_of_isLetter {c : CodePoint} (h : isLetter c = true) : c.isDigit = false := by
  have range : c.val < 0x80 ∧ ¬ (0x30 ≤ c.val ∧ c.val ≤ 0x39) := by
    simp only [isLetter, CodePoint.isAsciiLetter, CodePoint.isAsciiUpper, CodePoint.isAsciiLower,
      Bool.or_eq_true, Bool.and_eq_true, decide_eq_true_eq] at h
    rcases h with (h | h) | h
    · omega
    · omega
    · rw [h]
      decide
  have figures : (CodePoint.figures.all fun r => 0x80 ≤ r.first) = true := by decide
  rw [CodePoint.isDigit, CodePoint.isDecimal, CodePoint.decimalValue?, if_pos range.1,
    if_neg range.2, Option.isSome_none, Bool.false_or, CodePoint.isIn, List.any_eq_false]
  intro r member
  have far := List.all_eq_true.mp figures r member
  simp only [decide_eq_true_eq, Bool.and_eq_true] at far ⊢
  omega

/-- An identifier that is made of digits is a number. -/
theorem isNumber_of_isDigits {t : Text} (passes : isPrereleaseIdentifier t = true)
    (digits : t.isDigits = true) : isNumber t = true := by
  rcases Bool.or_eq_true_iff.mp passes with number | word
  · exact number
  · exfalso
    unfold isWord at word
    split at word
    · exact absurd word (by decide)
    · rename_i c rest behind
      have member : c ∈ t :=
        (List.dropWhile_sublist _).subset (behind ▸ List.mem_cons_self)
      rw [Text.isDigits, Bool.and_eq_true, List.all_eq_true] at digits
      have digit := digits.2 c member
      rw [Bool.and_eq_true] at word
      rw [isDigit_of_isLetter word.1] at digit
      exact absurd digit (by decide)

namespace IsStandardIdentifier

variable {t u : Text}

theorem isNumber (h : IsStandardIdentifier t) (digits : t.isDigits = true) :
    Version.isNumber t = true :=
  isNumber_of_isDigits h.passes digits

theorem ofNat_numeral (h : IsStandardIdentifier t) (digits : t.isDigits = true) :
    Text.ofNat t.numeral = t :=
  Text.ofNat_numeral (h.isNumber digits) (h.digits digits)

/-- Reading a number gives its value, unless it is too long. -/
theorem number (h : IsStandardIdentifier t) (digits : t.isDigits = true) :
    EqUnless (IsTooLong [t]) (Version.number t) (.ok t.numeral) := by
  have some : t ≠ [] := by
    rintro rfl
    exact absurd digits (by decide)
  rw [Version.number, Text.natural_of_digits some (h.digits digits)]
  split
  · rename_i long
    exact .inr ⟨_, ⟨t, List.mem_singleton_self t, long, rfl⟩, rfl⟩
  · exact .inl rfl

/-- Identifiers that stand in one place are the same. -/
theorem eq_of_rank (h : IsStandardIdentifier t) (also : IsStandardIdentifier u)
    (same : identifierRank t = identifierRank u) : t = u := by
  unfold identifierRank at same
  split at same
  · rename_i digits
    split at same
    · rename_i digitsAlso
      have value : t.numeral = u.numeral := Sum.inl.inj (toLex_inj.mp same)
      rw [← h.ofNat_numeral digits, value, also.ofNat_numeral digitsAlso]
    · exact absurd (toLex_inj.mp same) (by simp)
  · split at same
    · exact absurd (toLex_inj.mp same) (by simp)
    · exact Sum.inr.inj (toLex_inj.mp same)

/-- Two different identifiers compare as they stand. -/
theorem compare (h : IsStandardIdentifier t) (also : IsStandardIdentifier u) (differ : t ≠ u) :
    EqUnless (IsTooLong [t, u]) (compareIdentifiers t u)
      (.ok (comparison (identifierRank t) (identifierRank u))) := by
  have apart : identifierRank t ≠ identifierRank u := fun same => differ (h.eq_of_rank also same)
  unfold identifierRank at apart ⊢
  unfold compareIdentifiers
  cases digits : t.isDigits with
  | true =>
      cases digitsAlso : u.isDigits with
      | true =>
          -- Different numbers have different values, so one that is not below is above.
          simp only [digits, digitsAlso, if_true] at apart ⊢
          refine ((h.number digits).mono fun e long => long.mono (by simp)).bind_ok ?_
          refine ((also.number digitsAlso).mono fun e long => long.mono (by simp)).bind_ok ?_
          apply EqUnless.of_eq
          split
          · rename_i less
            rw [comparison_eq_lt.mpr (Sum.Lex.inl_lt_inl_iff.mpr less)]
            rfl
          · rename_i notLess
            have more : u.numeral < t.numeral :=
              lt_of_le_of_ne (not_lt.mp notLess) fun same => apart (by rw [same])
            rw [comparison_eq_gt.mpr (Sum.Lex.inl_lt_inl_iff.mpr more)]
            rfl
      | false =>
          exact .inl (congrArg Except.ok (comparison_eq_lt.mpr (Sum.Lex.inl_lt_inr _ _)).symm)
  | false =>
      cases digitsAlso : u.isDigits with
      | true =>
          exact .inl (congrArg Except.ok (comparison_eq_gt.mpr (Sum.Lex.inl_lt_inr _ _)).symm)
      | false =>
          apply EqUnless.of_eq
          show Except.ok (if t < u then Ordering.lt else .gt) = _
          split
          · rename_i less
            rw [comparison_eq_lt.mpr (Sum.Lex.inr_lt_inr_iff.mpr less)]
          · rename_i notLess
            have more : u < t := lt_of_le_of_ne (not_lt.mp notLess) differ.symm
            rw [comparison_eq_gt.mpr (Sum.Lex.inr_lt_inr_iff.mpr more)]

end IsStandardIdentifier

/-! ## Comparing versions -/

/-- Lists of identifiers compare as they stand. -/
theorem compareParts_eq {xs ys : List Text} (standard : ∀ t ∈ xs, IsStandardIdentifier t)
    (also : ∀ t ∈ ys, IsStandardIdentifier t) :
    EqUnless (IsTooLong (xs ++ ys)) (compareParts xs ys)
      (.ok (comparison (xs.map identifierRank) (ys.map identifierRank))) := by
  induction xs generalizing ys with
  | nil =>
      cases ys with
      | nil => exact .inl (congrArg Except.ok (comparison_self _).symm)
      | cons y ys => exact .inl (congrArg Except.ok (comparison_eq_lt.mpr List.Lex.nil).symm)
  | cons x xs ih =>
      cases ys with
      | nil => exact .inl (congrArg Except.ok (comparison_eq_gt.mpr List.Lex.nil).symm)
      | cons y ys =>
          obtain ⟨first, rest⟩ := List.forall_mem_cons.mp standard
          obtain ⟨firstAlso, restAlso⟩ := List.forall_mem_cons.mp also
          rw [compareParts, List.map_cons, List.map_cons, comparison_cons]
          split
          · rename_i same
            rw [same, comparison_self]
            refine (ih rest restAlso).mono fun e long => long.mono ?_
            exact List.append_subset.mpr
              ⟨List.subset_append_of_subset_left _ (List.subset_cons_self _ _),
              List.subset_append_of_subset_right _ (List.subset_cons_self _ _)⟩
          · rename_i differ
            have decided : comparison (identifierRank x) (identifierRank y) ≠ .eq := fun same =>
              differ (first.eq_of_rank firstAlso (comparison_eq_eq.mp same))
            -- Identifiers that differ decide, whatever is behind them.
            have whole : ((comparison (identifierRank x) (identifierRank y)).then
                (comparison (xs.map identifierRank) (ys.map identifierRank))) =
                  comparison (identifierRank x) (identifierRank y) := by
              cases found : comparison (identifierRank x) (identifierRank y) with
              | eq => exact absurd found decided
              | lt => rfl
              | gt => rfl
            rw [whole]
            refine (first.compare firstAlso differ).mono fun e long => long.mono ?_
            simp

/-- Pre-releases compare as they stand. -/
theorem comparePrereleases_eq {xs ys : List Text} (standard : ∀ t ∈ xs, IsStandardIdentifier t)
    (also : ∀ t ∈ ys, IsStandardIdentifier t) :
    EqUnless (IsTooLong (xs ++ ys)) (comparePrereleases xs ys)
      (.ok (comparison (prereleasePlace xs) (prereleasePlace ys))) := by
  have coe : ∀ r s : List (ℕ ⊕ₗ Text),
      comparison (r : WithTop (List (ℕ ⊕ₗ Text))) s = comparison r s := by
    intro r s
    rcases lt_trichotomy r s with less | rfl | more
    · rw [comparison_eq_lt.mpr less, comparison_eq_lt.mpr (WithTop.coe_lt_coe.mpr less)]
    · rw [comparison_self, comparison_self]
    · rw [comparison_eq_gt.mpr more, comparison_eq_gt.mpr (WithTop.coe_lt_coe.mpr more)]
  cases xs with
  | nil =>
      cases ys with
      | nil => exact .inl (congrArg Except.ok (comparison_self _).symm)
      | cons y ys =>
          exact .inl (congrArg Except.ok (comparison_eq_gt.mpr (WithTop.coe_lt_top _)).symm)
  | cons x xs =>
      cases ys with
      | nil => exact .inl (congrArg Except.ok (comparison_eq_lt.mpr (WithTop.coe_lt_top _)).symm)
      | cons y ys =>
          rw [prereleasePlace, prereleasePlace, coe]
          exact compareParts_eq standard also

theorem compareCores_eq (a b : Version) :
    compareCores a b = comparison a.corePlace b.corePlace := by
  unfold compareCores corePlace
  rw [comparison_toLex, comparison_toLex, comparison_nat, comparison_nat, comparison_nat]

variable {a b : Version}

/-- Standard versions compare as they stand, or a number is too long. -/
theorem order_eq (standard : a.IsStandard) (also : b.IsStandard) :
    EqUnless (IsTooLong (a.prerelease ++ b.prerelease)) (order a b)
      (.ok (comparison a.precedence b.precedence)) := by
  have whole : comparison a.precedence b.precedence = (comparison a.corePlace b.corePlace).then
      (comparison (prereleasePlace a.prerelease) (prereleasePlace b.prerelease)) :=
    comparison_toLex _ _ _ _
  rw [whole]
  unfold order
  rw [compareCores_eq]
  cases comparison a.corePlace b.corePlace with
  | lt => exact .inl rfl
  | eq => exact comparePrereleases_eq standard also
  | gt => exact .inl rfl

/-- Versions whose pre-releases differ in one identifier stand in two places. -/
theorem precedence_ne_of_identifier {t u : Text} {major minor patch : Nat} {s r : List Text}
    (standard : IsStandardIdentifier t) (also : IsStandardIdentifier u) (differ : t ≠ u) :
    precedence ⟨major, minor, patch, [t], s⟩ ≠ precedence ⟨major, minor, patch, [u], r⟩ := by
  intro same
  have places := (Prod.mk.inj (toLex_inj.mp same)).2
  have ranks := List.singleton_inj.mp (WithTop.coe_inj.mp places)
  exact differ (standard.eq_of_rank also ranks)

/-- The refusal to compare a version with another one, because a number is too long. -/
def CannotCompare (a b : Version) (e : VersionError) : Prop :=
  IsTooLong (a.prerelease ++ b.prerelease) e ∧ order a b = .error e

theorem order_agrees (standard : a.IsStandard) (also : b.IsStandard) :
    EqUnless (CannotCompare a b) (order a b) (.ok (comparison a.precedence b.precedence)) := by
  rcases order_eq standard also with same | ⟨e, long, failed⟩
  · exact .inl same
  · exact .inr ⟨e, ⟨long, failed⟩, failed⟩

theorem precedes_agrees (standard : a.IsStandard) (also : b.IsStandard) :
    EqUnless (CannotCompare a b) (precedes a b) (.ok (decide (a.precedence < b.precedence))) := by
  refine (order_agrees standard also).bind_ok (.of_eq (congrArg Except.ok ?_))
  rw [Bool.eq_iff_iff, beq_iff_eq, decide_eq_true_eq, comparison_eq_lt]

theorem sameRank_agrees (standard : a.IsStandard) (also : b.IsStandard) :
    EqUnless (CannotCompare a b) (sameRank a b) (.ok (decide (a.precedence = b.precedence))) := by
  refine (order_agrees standard also).bind_ok (.of_eq (congrArg Except.ok ?_))
  rw [Bool.eq_iff_iff, beq_iff_eq, decide_eq_true_eq, comparison_eq_eq]

theorem follows_agrees (standard : a.IsStandard) (also : b.IsStandard) :
    EqUnless (CannotCompare a b) (follows a b) (.ok (decide (b.precedence < a.precedence))) := by
  refine (precedes_agrees standard also).bind_ok ?_
  rcases lt_trichotomy a.precedence b.precedence with less | same | more
  · rw [decide_eq_true less, decide_eq_false (lt_asymm less)]
    exact .inl rfl
  · rw [decide_eq_false (same ▸ lt_irrefl _), decide_eq_false (same ▸ lt_irrefl _)]
    refine (sameRank_agrees standard also).bind_ok ?_
    rw [decide_eq_true same]
    exact .inl rfl
  · rw [decide_eq_false (lt_asymm more), decide_eq_true more]
    refine (sameRank_agrees standard also).bind_ok ?_
    rw [decide_eq_false (ne_of_gt more)]
    exact .inl rfl

end Version

namespace Sample

open Version

/-! ## A version that cannot be compared -/

/-- A number of one digit more than can be read. -/
def longNumber : Text := List.replicate (Decimal.digitLimit + 1) 0x31

/-- A pre-release that is numbered so. -/
def longVersion : Version := ⟨1, 0, 0, [longNumber], []⟩

theorem isStandardIdentifier_longNumber : IsStandardIdentifier longNumber := by
  constructor
  · apply Bool.or_eq_true_iff.mpr
    left
    have first : (0x31 : CodePoint) ≠ CodePoint.ofChar '0' := by decide
    rw [longNumber, List.replicate_succ, isNumber, if_neg first, Bool.and_eq_true, List.all_eq_true]
    refine ⟨by decide, fun c member => ?_⟩
    rw [List.eq_of_mem_replicate member]
    decide
  · intro _ c member
    rw [List.eq_of_mem_replicate member]
    decide

theorem isDigits_longNumber : longNumber.isDigits = true := by
  rw [Text.isDigits, Bool.and_eq_true, List.all_eq_true]
  refine ⟨rfl, fun c member => ?_⟩
  rw [List.eq_of_mem_replicate member]
  decide

theorem isStandard_longVersion : longVersion.IsStandard :=
  List.forall_mem_cons.mpr ⟨isStandardIdentifier_longNumber, List.forall_mem_nil _⟩

/-- The long version is read from a text. -/
theorem parse_longVersion : parse longVersion.toText = .ok longVersion := by
  apply parse_toText
  refine ⟨by decide, by decide, by decide, ?_, List.forall_mem_nil _⟩
  intro t member
  exact (isStandard_longVersion t member).passes

theorem ne_longNumber : ("1" : Text) ≠ longNumber := by
  intro same
  have length := congrArg List.length same
  rw [longNumber, List.length_replicate] at length
  exact absurd length (by decide)

end Sample

end ModulePackaging
