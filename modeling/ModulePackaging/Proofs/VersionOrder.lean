import ModulePackaging.Proofs.Precedence

/-!
# Versions are ordered by the rules of the standard

The rules that say which of two versions comes first: numbers before all else, a release behind its
pre-releases, and pre-releases identifier by identifier. They order versions totally, up to their
builds. Comparing follows them and is refused in one case only: where the first identifiers that
differ are numbers and one of them is too long to be converted.
-/

namespace ModulePackaging.Version

variable {a b c : Version} {t u : Text} {xs ys zs : List Text}

/-! ## The rules -/

/-- Which of two identifiers comes first: numbers by value and in front of all words, words by their
code points. -/
inductive IdentifierBelow (t u : Text) : Prop
  | numbers (digits : t.isDigits = true) (also : u.isDigits = true) (less : t.numeral < u.numeral)
  | numberAndWord (digits : t.isDigits = true) (word : u.isDigits = false)
  | words (word : t.isDigits = false) (also : u.isDigits = false) (less : t < u)

/-- Which of two lists of identifiers comes first: the first identifiers that differ tell, and a
list comes behind each of its beginnings. -/
inductive PartsBelow : List Text → List Text → Prop
  | shorter (t : Text) (rest : List Text) : PartsBelow [] (t :: rest)
  | first {t u : Text} (less : IdentifierBelow t u) (xs ys : List Text) :
      PartsBelow (t :: xs) (u :: ys)
  | later (t : Text) {xs ys : List Text} (less : PartsBelow xs ys) : PartsBelow (t :: xs) (t :: ys)

/-- Which of two versions comes first. -/
inductive Below (a b : Version) : Prop
  | major (less : a.major < b.major)
  | minor (major : a.major = b.major) (less : a.minor < b.minor)
  | patch (major : a.major = b.major) (minor : a.minor = b.minor) (less : a.patch < b.patch)
  | release (core : a.core = b.core) (before : a.prerelease ≠ []) (release : b.prerelease = [])
  | identifiers (core : a.core = b.core) (before : a.prerelease ≠ [])
      (less : PartsBelow a.prerelease b.prerelease)

/-- How two versions stand to each other by the rules; those of one rank stand in one place. -/
def Compares (a b : Version) : Ordering → Prop
  | .lt => Below a b
  | .eq => a.rank = b.rank
  | .gt => Below b a

/-! ## The rules describe the precedence -/

theorem identifierBelow_iff : IdentifierBelow t u ↔ identifierRank t < identifierRank u := by
  unfold identifierRank
  cases digits : t.isDigits with
  | true =>
      cases also : u.isDigits with
      | true =>
          simp only [if_true, Sum.Lex.inl_lt_inl_iff]
          constructor
          · rintro (⟨_, _, less⟩ | ⟨_, word⟩ | ⟨word, _, _⟩)
            · exact less
            · simp [also] at word
            · simp [digits] at word
          · exact .numbers digits also
      | false => exact iff_of_true (.numberAndWord digits also) (Sum.Lex.inl_lt_inr _ _)
  | false =>
      cases also : u.isDigits with
      | true =>
          refine iff_of_false ?_ (lt_asymm (Sum.Lex.inl_lt_inr _ _))
          rintro (⟨number, _, _⟩ | ⟨number, _⟩ | ⟨_, word, _⟩)
          · simp [digits] at number
          · simp [digits] at number
          · simp [also] at word
      | false =>
          simp only [Bool.false_eq_true, if_false, Sum.Lex.inr_lt_inr_iff]
          constructor
          · rintro (⟨number, _, _⟩ | ⟨number, _⟩ | ⟨_, _, less⟩)
            · simp [digits] at number
            · simp [digits] at number
            · exact less
          · exact .words digits also

theorem IdentifierBelow.ne (h : IdentifierBelow t u) : t ≠ u := by
  rintro rfl
  exact lt_irrefl _ (identifierBelow_iff.mp h)

theorem IdentifierBelow.asymm (h : IdentifierBelow t u) : ¬ IdentifierBelow u t := fun back =>
  lt_asymm (identifierBelow_iff.mp h) (identifierBelow_iff.mp back)

/-- Standard identifiers in one place are the same, one by one. -/
theorem eq_of_ranks (standard : ∀ t ∈ xs, IsStandardIdentifier t)
    (also : ∀ t ∈ ys, IsStandardIdentifier t)
    (same : xs.map identifierRank = ys.map identifierRank) : xs = ys := by
  induction xs generalizing ys with
  | nil => exact (List.map_eq_nil_iff.mp same.symm).symm
  | cons x xs ih =>
      cases ys with
      | nil => exact absurd same (by simp)
      | cons y ys =>
          obtain ⟨first, rest⟩ := List.forall_mem_cons.mp standard
          obtain ⟨firstAlso, restAlso⟩ := List.forall_mem_cons.mp also
          obtain ⟨here, later⟩ := List.cons_eq_cons.mp same
          rw [first.eq_of_rank firstAlso here, ih rest restAlso later]

theorem partsBelow_iff (standard : ∀ t ∈ xs, IsStandardIdentifier t)
    (also : ∀ t ∈ ys, IsStandardIdentifier t) :
    PartsBelow xs ys ↔ xs.map identifierRank < ys.map identifierRank := by
  induction xs generalizing ys with
  | nil =>
      cases ys with
      | nil => exact iff_of_false nofun (lt_irrefl _)
      | cons y ys => exact iff_of_true (.shorter y ys) List.Lex.nil
  | cons x xs ih =>
      cases ys with
      | nil => exact iff_of_false nofun (List.not_lt_nil _)
      | cons y ys =>
          obtain ⟨first, rest⟩ := List.forall_mem_cons.mp standard
          obtain ⟨firstAlso, restAlso⟩ := List.forall_mem_cons.mp also
          rw [List.map_cons, List.map_cons, List.cons_lt_cons_iff, ← identifierBelow_iff,
            ← ih rest restAlso]
          constructor
          · rintro (_ | ⟨less⟩ | ⟨_, less⟩)
            · exact .inl less
            · exact .inr ⟨rfl, less⟩
          · rintro (less | ⟨same, less⟩)
            · exact .first less xs ys
            · obtain rfl := first.eq_of_rank firstAlso same
              exact .later x less

theorem corePlace_eq_iff : a.corePlace = b.corePlace ↔ a.core = b.core := by
  simp [corePlace, core]

/-- The numbers tell first, and the pre-releases if those are the same. -/
theorem below_iff_core : Below a b ↔ a.corePlace < b.corePlace ∨
    a.core = b.core ∧ a.prerelease ≠ [] ∧
      (b.prerelease = [] ∨ PartsBelow a.prerelease b.prerelease) := by
  rw [corePlace, corePlace, Prod.Lex.toLex_lt_toLex, Prod.Lex.toLex_lt_toLex]
  constructor
  · rintro (less | ⟨major, less⟩ | ⟨major, minor, less⟩ | ⟨core, before, release⟩ |
      ⟨core, before, less⟩)
    · exact .inl (.inl less)
    · exact .inl (.inr ⟨major, .inl less⟩)
    · exact .inl (.inr ⟨major, .inr ⟨minor, less⟩⟩)
    · exact .inr ⟨core, before, .inl release⟩
    · exact .inr ⟨core, before, .inr less⟩
  · rintro ((less | ⟨major, less | ⟨minor, less⟩⟩) | ⟨core, before, release | less⟩)
    · exact .major less
    · exact .minor major less
    · exact .patch major minor less
    · exact .release core before release
    · exact .identifiers core before less

/-- A pre-release stands below another one, or below the release. -/
theorem prereleasePlace_lt_iff (standard : ∀ t ∈ xs, IsStandardIdentifier t)
    (also : ∀ t ∈ ys, IsStandardIdentifier t) :
    prereleasePlace xs < prereleasePlace ys ↔ xs ≠ [] ∧ (ys = [] ∨ PartsBelow xs ys) := by
  cases xs with
  | nil => exact iff_of_false not_top_lt (by simp)
  | cons x xs =>
      cases ys with
      | nil => exact iff_of_true (WithTop.coe_lt_top _) (by simp)
      | cons y ys =>
          rw [partsBelow_iff standard also, prereleasePlace, prereleasePlace, WithTop.coe_lt_coe]
          simp

/-- The rules are those of the precedence. -/
theorem below_iff (standard : a.IsStandard) (also : b.IsStandard) :
    Below a b ↔ a.precedence < b.precedence := by
  have place : a.precedence < b.precedence ↔ a.corePlace < b.corePlace ∨
      a.corePlace = b.corePlace ∧ prereleasePlace a.prerelease < prereleasePlace b.prerelease :=
    Prod.Lex.toLex_lt_toLex
  rw [place, below_iff_core, corePlace_eq_iff, prereleasePlace_lt_iff standard also]

/-- Versions stand in one place if they are the same but for their builds. -/
theorem rank_eq_iff (standard : a.IsStandard) (also : b.IsStandard) :
    a.rank = b.rank ↔ a.precedence = b.precedence := by
  have place : a.precedence = b.precedence ↔ a.corePlace = b.corePlace ∧
      prereleasePlace a.prerelease = prereleasePlace b.prerelease :=
    toLex_inj.trans Prod.mk_inj
  rw [place, corePlace_eq_iff, rank, rank, Prod.mk.injEq]
  refine and_congr_right fun _ => ⟨congrArg prereleasePlace, fun same => ?_⟩
  unfold IsStandard at standard also
  generalize a.prerelease = xs at *
  generalize b.prerelease = ys at *
  cases xs with
  | nil =>
      cases ys with
      | nil => rfl
      | cons y ys => exact absurd same.symm (WithTop.coe_ne_top)
  | cons x xs =>
      cases ys with
      | nil => exact absurd same (WithTop.coe_ne_top)
      | cons y ys => exact eq_of_ranks standard also (WithTop.coe_inj.mp same)

theorem compares_iff (standard : a.IsStandard) (also : b.IsStandard) (o : Ordering) :
    Compares a b o ↔ comparison a.precedence b.precedence = o := by
  cases o with
  | lt => exact (below_iff standard also).trans comparison_eq_lt.symm
  | eq => exact (rank_eq_iff standard also).trans comparison_eq_eq.symm
  | gt => exact (below_iff also standard).trans comparison_eq_gt.symm

/-! ## Where comparing is refused -/

/-- Lists of identifiers whose comparison is refused: the first identifiers that differ are numbers,
and one of them is too long to be converted. -/
inductive Stuck : List Text → List Text → Prop
  | here {t u : Text} (differ : t ≠ u) (digits : t.isDigits = true) (also : u.isDigits = true)
      (long : Decimal.digitLimit < t.length ∨ Decimal.digitLimit < u.length) (xs ys : List Text) :
      Stuck (t :: xs) (u :: ys)
  | later (t : Text) {xs ys : List Text} (stuck : Stuck xs ys) : Stuck (t :: xs) (t :: ys)

/-- Versions whose comparison is refused. -/
structure IsStuck (a b : Version) : Prop where
  core : a.core = b.core
  identifiers : Stuck a.prerelease b.prerelease

theorem Stuck.symm (h : Stuck xs ys) : Stuck ys xs := by
  induction h with
  | here differ digits also long xs ys => exact .here differ.symm also digits long.symm ys xs
  | later t _ ih => exact .later t ih

theorem Stuck.ne_nil (h : Stuck xs ys) : ys ≠ [] := by
  cases h <;> exact List.cons_ne_nil _ _

theorem Stuck.ne (h : Stuck xs ys) : xs ≠ ys := by
  induction h with
  | here differ _ _ _ _ _ => exact fun same => differ (List.cons_eq_cons.mp same).1
  | later t _ ih => exact fun same => ih (List.cons_eq_cons.mp same).2

theorem IsStuck.symm (h : IsStuck a b) : IsStuck b a := ⟨h.core.symm, h.identifiers.symm⟩

/-- Reading a number of the standard grammar is refused if it is too long. -/
theorem number_error_iff (standard : IsStandardIdentifier t) (digits : t.isDigits = true) :
    (∃ e, number t = .error e) ↔ Decimal.digitLimit < t.length := by
  have some : t ≠ [] := by
    rintro rfl
    exact absurd digits (by decide)
  rw [number, Text.natural_of_digits some (standard.digits digits)]
  split
  · rename_i long
    exact iff_of_true ⟨_, rfl⟩ long
  · rename_i short
    exact iff_of_false (by rintro ⟨e, failed⟩; exact absurd failed (by simp [mapError_ok])) short

theorem compareIdentifiers_error_iff (standard : IsStandardIdentifier t)
    (also : IsStandardIdentifier u) : (∃ e, compareIdentifiers t u = .error e) ↔
      t.isDigits = true ∧ u.isDigits = true ∧
        (Decimal.digitLimit < t.length ∨ Decimal.digitLimit < u.length) := by
  unfold compareIdentifiers
  cases digits : t.isDigits with
  | false => cases u.isDigits <;> simp
  | true =>
      cases digitsAlso : u.isDigits with
      | false => simp
      | true =>
          rw [← number_error_iff standard digits, ← number_error_iff also digitsAlso]
          cases number t with
          | error e => simp [bind, Except.bind]
          | ok m =>
              cases number u with
              | error e => simp [bind, Except.bind]
              | ok n => simp [bind, Except.bind, pure, Except.pure]

theorem compareParts_error_iff (standard : ∀ t ∈ xs, IsStandardIdentifier t)
    (also : ∀ t ∈ ys, IsStandardIdentifier t) :
    (∃ e, compareParts xs ys = .error e) ↔ Stuck xs ys := by
  induction xs generalizing ys with
  | nil =>
      cases ys with
      | nil => exact iff_of_false (by simp [compareParts]) fun stuck => by cases stuck
      | cons y ys => exact iff_of_false (by simp [compareParts]) fun stuck => by cases stuck
  | cons x xs ih =>
      cases ys with
      | nil => exact iff_of_false (by simp [compareParts]) fun stuck => by cases stuck
      | cons y ys =>
          obtain ⟨first, rest⟩ := List.forall_mem_cons.mp standard
          obtain ⟨firstAlso, restAlso⟩ := List.forall_mem_cons.mp also
          rw [compareParts]
          split
          · rename_i same
            subst same
            rw [ih rest restAlso]
            constructor
            · exact .later x
            · rintro (⟨differ, _, _, _, _, _⟩ | ⟨_, stuck⟩)
              · exact absurd rfl differ
              · exact stuck
          · rename_i differ
            rw [compareIdentifiers_error_iff first firstAlso]
            constructor
            · rintro ⟨digits, digitsAlso, long⟩
              exact .here differ digits digitsAlso long xs ys
            · rintro (⟨_, digits, digitsAlso, long, _, _⟩ | ⟨_, _⟩)
              · exact ⟨digits, digitsAlso, long⟩
              · exact absurd rfl differ

/-- Comparing is refused for exactly those versions. -/
theorem order_error_iff (standard : a.IsStandard) (also : b.IsStandard) :
    (∃ e, order a b = .error e) ↔ IsStuck a b := by
  have parts : (∃ e, comparePrereleases a.prerelease b.prerelease = .error e) ↔
      Stuck a.prerelease b.prerelease := by
    rw [← compareParts_error_iff standard also]
    generalize a.prerelease = xs
    generalize b.prerelease = ys
    cases xs <;> cases ys <;> simp [comparePrereleases, compareParts]
  have cores : compareCores a b = .eq ↔ a.core = b.core := by
    rw [compareCores_eq, comparison_eq_eq, corePlace_eq_iff]
  unfold order
  cases decided : compareCores a b with
  | eq => exact parts.trans ⟨fun stuck => ⟨cores.mp decided, stuck⟩, IsStuck.identifiers⟩
  | lt =>
      refine iff_of_false (by simp) fun stuck => ?_
      rw [cores.mpr stuck.core] at decided
      exact absurd decided (by simp)
  | gt =>
      refine iff_of_false (by simp) fun stuck => ?_
      rw [cores.mpr stuck.core] at decided
      exact absurd decided (by simp)

/-- Where it is not refused, comparing tells how the versions stand to each other. -/
theorem order_eq_ok_iff (standard : a.IsStandard) (also : b.IsStandard) (o : Ordering) :
    order a b = .ok o ↔ Compares a b o ∧ ¬ IsStuck a b := by
  rw [compares_iff standard also, ← order_error_iff standard also]
  rcases order_eq standard also with same | ⟨e, _, failed⟩
  · simp [same]
  · simp [failed]

/-- If two lists of identifiers are stuck, one between them is stuck with one of them. -/
theorem Stuck.of_between (h : Stuck xs zs) (low : PartsBelow xs ys) (high : PartsBelow ys zs) :
    Stuck xs ys ∨ Stuck ys zs := by
  induction h generalizing ys with
  | @here t u differ digits also long xs zs =>
      cases low with
      | @first _ v less _ ys =>
          cases high with
          | later _ _ => exact .inl (.here differ digits also long xs ys)
          | first more _ _ =>
              -- Between two numbers there are only numbers.
              have number : v.isDigits = true := by
                rcases more with ⟨digits, _, _⟩ | ⟨digits, _⟩ | ⟨_, word, _⟩
                · exact digits
                · exact digits
                · simp [also] at word
              rcases long with long | long
              · exact .inl (.here less.ne digits number (.inl long) xs ys)
              · exact .inr (.here more.ne number also (.inr long) ys zs)
      | @later _ _ ys _ =>
          cases high with
          | first _ _ _ => exact .inr (.here differ digits also long ys zs)
          | later _ _ => exact absurd rfl differ
  | later t _ ih =>
      cases low with
      | first less _ _ =>
          cases high with
          | first more _ _ => exact absurd more less.asymm
          | later _ _ => exact absurd rfl less.ne
      | later _ low =>
          cases high with
          | first more _ _ => exact absurd rfl more.ne
          | later _ high =>
              exact (ih low high).imp (.later t) (.later t)

/-- If two versions are stuck, one between them is stuck with one of them. -/
theorem IsStuck.of_between (h : IsStuck a c) (low : Below a b) (high : Below b c) :
    IsStuck a b ∨ IsStuck b c := by
  have cores : a.corePlace = c.corePlace := corePlace_eq_iff.mpr h.core
  -- The core in the middle is that of both, so only the identifiers can tell the three apart.
  rcases below_iff_core.mp low with less | ⟨coreLow, _, low⟩
  · rcases below_iff_core.mp high with more | ⟨coreHigh, _⟩
    · exact absurd (less.trans more) (cores ▸ lt_irrefl _)
    · rw [cores, corePlace_eq_iff.mpr coreHigh] at less
      exact absurd less (lt_irrefl _)
  · rcases below_iff_core.mp high with more | ⟨coreHigh, some, high⟩
    · rw [← cores, corePlace_eq_iff.mpr coreLow] at more
      exact absurd more (lt_irrefl _)
    · have last := h.identifiers.ne_nil
      exact (h.identifiers.of_between (low.resolve_left some) (high.resolve_left last)).imp
        (⟨coreLow, ·⟩) (⟨coreHigh, ·⟩)

theorem IsStuck.of_rank (h : IsStuck a c) (same : a.rank = b.rank) : IsStuck b c := by
  obtain ⟨core, identifiers⟩ := Prod.mk.inj same
  exact ⟨core ▸ h.core, identifiers ▸ h.identifiers⟩

/-- If two versions are stuck, one from the first to the second is stuck with one of them. -/
theorem IsStuck.of_within (standard : a.IsStandard) (also : b.IsStandard) (third : c.IsStandard)
    (h : IsStuck a c) (low : a.precedence ≤ b.precedence) (high : b.precedence ≤ c.precedence) :
    IsStuck a b ∨ IsStuck b c := by
  rcases low.eq_or_lt with same | less
  · exact .inr (h.of_rank ((rank_eq_iff standard also).mpr same))
  rcases high.eq_or_lt with same | more
  · exact .inl (h.symm.of_rank ((rank_eq_iff third also).mpr same.symm)).symm
  · exact h.of_between ((below_iff standard also).mpr less) ((below_iff also third).mpr more)

/-- Comparing two identifiers is refused as reading the first number is, or else the second. -/
theorem compareIdentifiers_eq_error {e : VersionError} : compareIdentifiers t u = .error e ↔
    t.isDigits = true ∧ u.isDigits = true ∧
      (number t = .error e ∨ ∃ n, number t = .ok n ∧ number u = .error e) := by
  unfold compareIdentifiers
  cases t.isDigits with
  | false => cases u.isDigits <;> simp
  | true =>
      cases u.isDigits with
      | false => simp
      | true => simp [bind_eq_error, pure, Except.pure]

/-- Two identifiers that cannot be compared with a third one are refused for one reason, unless they
are different and the first one has a number that is too long to be read. -/
theorem compareIdentifiers_error_unique {x y z : Text} {e f : VersionError}
    (standard : IsStandardIdentifier y) (h : compareIdentifiers x y = .error e)
    (k : compareIdentifiers x z = .error f) :
    e = f ∨ y ≠ z ∧ y.isDigits = true ∧ z.isDigits = true ∧ Decimal.digitLimit < y.length := by
  obtain ⟨_, digits, failed⟩ := compareIdentifiers_eq_error.mp h
  obtain ⟨_, digits', failed'⟩ := compareIdentifiers_eq_error.mp k
  rcases failed with failed | ⟨n, short, failed⟩
  · rcases failed' with failed' | ⟨n, short, _⟩
    · exact .inl (Except.error.inj (failed.symm.trans failed'))
    · exact absurd (failed.symm.trans short) (by simp)
  · rcases failed' with failed' | ⟨_, _, failed'⟩
    · exact absurd (failed'.symm.trans short) (by simp)
    by_cases same : y = z
    · subst same
      exact .inl (Except.error.inj (failed.symm.trans failed'))
    · exact .inr ⟨same, digits, digits', (number_error_iff standard digits).mp ⟨e, failed⟩⟩

/-- Lists that are stuck with a third one, but not with each other, are refused for one reason. -/
theorem compareParts_error_unique {e f : VersionError} (standard : ∀ t ∈ xs, IsStandardIdentifier t)
    (also : ∀ t ∈ ys, IsStandardIdentifier t) (third : ∀ t ∈ zs, IsStandardIdentifier t)
    (h : compareParts xs ys = .error e) (k : compareParts xs zs = .error f)
    (free : ¬ Stuck ys zs) : e = f := by
  induction xs generalizing ys zs with
  | nil => cases ys <;> exact absurd h (by simp [compareParts])
  | cons x xs ih =>
      cases ys with
      | nil => exact absurd h (by simp [compareParts])
      | cons y ys =>
      cases zs with
      | nil => exact absurd k (by simp [compareParts])
      | cons z zs =>
          obtain ⟨first, rest⟩ := List.forall_mem_cons.mp standard
          obtain ⟨firstAlso, restAlso⟩ := List.forall_mem_cons.mp also
          obtain ⟨firstThird, restThird⟩ := List.forall_mem_cons.mp third
          rw [compareParts] at h k
          split at h
          · rename_i same
            subst same
            split at k
            · rename_i same
              subst same
              exact ih rest restAlso restThird h k fun stuck => free (.later x stuck)
            · rename_i differ
              obtain ⟨digits, digitsThird, long⟩ :=
                (compareIdentifiers_error_iff first firstThird).mp ⟨f, k⟩
              exact absurd (.here differ digits digitsThird long ys zs) free
          · rename_i differ
            split at k
            · rename_i same
              subst same
              obtain ⟨digits, digitsAlso, long⟩ :=
                (compareIdentifiers_error_iff first firstAlso).mp ⟨e, h⟩
              exact absurd (.here (Ne.symm differ) digitsAlso digits long.symm ys zs) free
            · rcases compareIdentifiers_error_unique firstAlso h k with
                same | ⟨differ, digits, digits', long⟩
              · exact same
              · exact absurd (.here differ digits digits' (.inl long) ys zs) free

/-- Versions that are stuck with a third one, but not with each other, are refused for one
reason. -/
theorem order_error_unique {e f : VersionError} (standard : a.IsStandard) (also : b.IsStandard)
    (third : c.IsStandard) (h : order a b = .error e) (k : order a c = .error f)
    (free : ¬ IsStuck b c) : e = f := by
  have stuck := (order_error_iff standard also).mp ⟨e, h⟩
  have stuckToo := (order_error_iff standard third).mp ⟨f, k⟩
  have parts : ∀ {d : Version} {g : VersionError}, IsStuck a d → order a d = .error g →
      compareParts a.prerelease d.prerelease = .error g := by
    intro d g stuck failed
    have cores : compareCores a d = .eq := by
      rw [compareCores_eq, comparison_eq_eq, corePlace_eq_iff]
      exact stuck.core
    have some := stuck.identifiers.symm.ne_nil
    have someToo := stuck.identifiers.ne_nil
    rw [order, cores] at failed
    simpa [comparePrereleases, some, someToo] using failed
  refine compareParts_error_unique standard also third (parts stuck h) (parts stuckToo k) ?_
  exact fun both => free ⟨stuck.core.symm.trans stuckToo.core, both⟩

/-! ## Operators -/

theorem precedes_eq (a b : Version) : precedes a b = (order a b).map Ordering.isLT := by
  unfold precedes
  rcases order a b with e | o
  · rfl
  · cases o <;> rfl

theorem sameRank_eq (a b : Version) : sameRank a b = (order a b).map Ordering.isEq := by
  unfold sameRank
  rcases order a b with e | o
  · rfl
  · cases o <;> rfl

theorem atMost_eq (a b : Version) : atMost a b = (order a b).map Ordering.isLE := by
  unfold atMost
  rw [precedes_eq, sameRank_eq]
  rcases order a b with e | o
  · rfl
  · cases o <;> rfl

theorem follows_eq (a b : Version) : follows a b = (order a b).map Ordering.isGT := by
  unfold follows
  rw [precedes_eq, sameRank_eq]
  rcases order a b with e | o
  · rfl
  · cases o <;> rfl

theorem atLeast_eq (a b : Version) : atLeast a b = (order a b).map Ordering.isGE := by
  unfold atLeast
  rw [precedes_eq]
  rcases order a b with e | o
  · rfl
  · cases o <;> rfl

theorem precedes_eq_true (standard : a.IsStandard) (also : b.IsStandard) :
    precedes a b = .ok true ↔ Below a b ∧ ¬ IsStuck a b := by
  have told : precedes a b = .ok true ↔ order a b = .ok .lt := by
    rw [precedes_eq]
    rcases order a b with e | o
    · simp [Except.map]
    · cases o <;> simp [Except.map]
  exact told.trans (order_eq_ok_iff standard also .lt)

/-- Two versions count as the same exactly if they differ in their builds at most: these can always
be compared. -/
theorem sameRank_eq_true (standard : a.IsStandard) (also : b.IsStandard) :
    sameRank a b = .ok true ↔ a.rank = b.rank := by
  have told : sameRank a b = .ok true ↔ order a b = .ok .eq := by
    rw [sameRank_eq]
    rcases order a b with e | o
    · simp [Except.map]
    · cases o <;> simp [Except.map]
  rw [told, order_eq_ok_iff standard also]
  refine and_iff_left_of_imp fun same stuck => ?_
  have identifiers : a.prerelease = b.prerelease := (Prod.mk.inj same).2
  exact stuck.identifiers.ne identifiers

/-- Versions that are not stuck count as the same exactly if they are of one rank. -/
theorem sameRank_of_free (standard : a.IsStandard) (also : b.IsStandard) (free : ¬ IsStuck a b) :
    sameRank a b = .ok (decide (a.rank = b.rank)) := by
  cases told : sameRank a b with
  | error e =>
      rw [sameRank_eq] at told
      cases compared : order a b with
      | error f => exact absurd ((order_error_iff standard also).mp ⟨f, compared⟩) free
      | ok o =>
          rw [compared] at told
          exact absurd told (by simp [Except.map])
  | ok same =>
      have one : same = true ↔ a.rank = b.rank := by
        rw [← sameRank_eq_true standard also, told, Except.ok.injEq]
      have value : decide (a.rank = b.rank) = same := by simp [← one]
      rw [value]

/-- Versions that are stuck are not compared. -/
theorem sameRank_of_stuck (standard : a.IsStandard) (also : b.IsStandard) (stuck : IsStuck a b) :
    ∃ e, sameRank a b = .error e := by
  obtain ⟨e, refused⟩ := (order_error_iff standard also).mpr stuck
  refine ⟨e, ?_⟩
  rw [sameRank_eq, refused]
  rfl

/-! ## The order -/

/-- Standard versions stand to each other in exactly one of three ways by the rules, which are
transitive, and comparing tells which one, except for versions that are stuck. So of those that are
not, exactly one comes before the other or they count as the same, and what comes before is
transitive whatever is stuck. Versions count as the same exactly if they differ in their builds at
most, and then they have one hash. The other operators say what the order says. -/
theorem order_is_precedence (standard : a.IsStandard) (also : b.IsStandard) (third : c.IsStandard) :
    (∃! o, Compares a b o) ∧ (Below a b → Below b c → Below a c) ∧
    (∀ o, order a b = .ok o ↔ Compares a b o ∧ ¬ IsStuck a b) ∧
    (¬ IsStuck a b →
      (precedes a b = .ok true ∧ sameRank a b = .ok false ∧ precedes b a = .ok false) ∨
      (precedes a b = .ok false ∧ sameRank a b = .ok true ∧ precedes b a = .ok false) ∨
      (precedes a b = .ok false ∧ sameRank a b = .ok false ∧ precedes b a = .ok true)) ∧
    (precedes a b = .ok true → precedes b c = .ok true → precedes a c = .ok true) ∧
    (sameRank a b = .ok true ↔ a.core = b.core ∧ a.prerelease = b.prerelease) ∧
    (sameRank a b = .ok true → ∀ hashRank, a.hash hashRank = b.hash hashRank) ∧
    atMost a b = (order a b).map Ordering.isLE ∧ follows a b = (order a b).map Ordering.isGT ∧
    atLeast a b = (order a b).map Ordering.isGE := by
  have transitive : Below a b → Below b c → Below a c := by
    rw [below_iff standard also, below_iff also third, below_iff standard third]
    exact lt_trans
  refine ⟨?_, transitive, order_eq_ok_iff standard also, ?_, ?_, ?_, ?_, atMost_eq a b,
    follows_eq a b, atLeast_eq a b⟩
  · simp only [compares_iff standard also]
    exact ⟨_, rfl, fun o same => same.symm⟩
  · intro free
    have forth := order_eq_ok_iff standard also
    have back := order_eq_ok_iff also standard
    rw [precedes_eq, sameRank_eq, precedes_eq]
    rcases lt_trichotomy a.precedence b.precedence with less | same | more
    · rw [← below_iff standard also] at less
      rw [(forth .lt).mpr ⟨less, free⟩, (back .gt).mpr ⟨less, mt IsStuck.symm free⟩]
      exact .inl ⟨rfl, rfl, rfl⟩
    · rw [← rank_eq_iff standard also] at same
      rw [(forth .eq).mpr ⟨same, free⟩, (back .eq).mpr ⟨same.symm, mt IsStuck.symm free⟩]
      exact .inr (.inl ⟨rfl, rfl, rfl⟩)
    · rw [← below_iff also standard] at more
      rw [(forth .gt).mpr ⟨more, free⟩, (back .lt).mpr ⟨more, mt IsStuck.symm free⟩]
      exact .inr (.inr ⟨rfl, rfl, rfl⟩)
  · rw [precedes_eq_true standard also, precedes_eq_true also third,
      precedes_eq_true standard third]
    rintro ⟨low, free⟩ ⟨high, freeAlso⟩
    exact ⟨transitive low high, fun stuck => (stuck.of_between low high).elim free freeAlso⟩
  · rw [sameRank_eq_true standard also, rank, rank, Prod.mk.injEq]
  · intro same hashRank
    rw [hash, hash, (sameRank_eq_true standard also).mp same]

end ModulePackaging.Version

namespace ModulePackaging.Sample

open Version

/-- A pre-release with a number behind a word. -/
def second : Version := ⟨1, 0, 0, ["alpha", "2"], []⟩

/-- A pre-release with a larger number, of a certain build. -/
def tenth : Version := ⟨1, 0, 0, ["alpha", "10"], ["7"]⟩

/-- A pre-release with a word in place of the number. -/
def named : Version := ⟨1, 0, 0, ["alpha", "beta"], []⟩

/-- The second pre-release comes before the tenth, that before the named one, and so on to the
last. -/
theorem order_is_precedence_of_three :
    second.IsStandard ∧ tenth.IsStandard ∧ named.IsStandard ∧ (∃! o, Compares second tenth o) ∧
      precedes second tenth = .ok true ∧ precedes tenth named = .ok true ∧
      precedes second named = .ok true := by
  have standard : second.IsStandard := by decide
  have also : tenth.IsStandard := by decide
  have third : named.IsStandard := by decide
  have low : precedes second tenth = .ok true := by rfl
  have high : precedes tenth named = .ok true := by rfl
  obtain ⟨one, _, _, _, transitive, _⟩ := order_is_precedence standard also third
  exact ⟨standard, also, third, one, low, high, transitive low high⟩

/-- The first pre-release that is numbered. -/
def numberedFirst : Version := ⟨1, 0, 0, ["1"], []⟩

/-- A pre-release with a long number comes neither before the first one nor behind it, and does not
count as the same. -/
theorem long_not_ordered :
    parse "1.0.0-1" = .ok numberedFirst ∧ parse longVersion.toText = .ok longVersion ∧
    numberedFirst.IsStandard ∧ longVersion.IsStandard ∧
    precedes numberedFirst longVersion ≠ .ok true ∧ sameRank numberedFirst longVersion ≠ .ok true ∧
    precedes longVersion numberedFirst ≠ .ok true := by
  have standard : numberedFirst.IsStandard := by decide
  have also := isStandard_longVersion
  have long : Decimal.digitLimit < longNumber.length := by
    rw [longNumber, List.length_replicate]
    exact Nat.lt_succ_self _
  have stuck : IsStuck numberedFirst longVersion :=
    ⟨rfl, .here ne_longNumber (by decide) isDigits_longNumber (.inr long) [] []⟩
  refine ⟨by rfl, parse_longVersion, standard, also, ?_, ?_, ?_⟩
  · rw [Ne, precedes_eq_true standard also]
    exact fun before => before.2 stuck
  · rw [Ne, sameRank_eq_true standard also]
    exact fun same => stuck.identifiers.ne (Prod.mk.inj same).2
  · rw [Ne, precedes_eq_true also standard]
    exact fun before => before.2 stuck.symm

end ModulePackaging.Sample
