import ModulePackaging.Fault
import ModulePackaging.Proofs.Precedence

/-!
# The grammar of versions

The productions of SemVer 2.0.0, one inductive relation each, with the identifiers and the fields
that a derivation assigns; and how the versions that are read compare with them.

Main statement (`parse_follows_grammar`): if all decimal digits of a text are ASCII, it is read
exactly when the trimmed text can be derived and its three numbers have no more digits than can be
read, and as the version of the derivation. A text with a digit of another script is never derived,
though some are read.
-/

namespace ModulePackaging

namespace Version

/-! ## The productions -/

namespace Grammar

/-- One of the digits `1` to `9`. -/
def isPositiveDigit (c : CodePoint) : Bool := 0x31 ≤ c.val && c.val ≤ 0x39

/-- One code point of a kind after the other, at least one: the productions of digits and of
identifier characters. -/
inductive Repeated (kind : CodePoint → Bool) : Text → Prop
  | one {c : CodePoint} (here : kind c = true) : Repeated kind [c]
  | more {c : CodePoint} {t : Text} (here : kind c = true) (rest : Repeated kind t) :
      Repeated kind (c :: t)

/-- Zero, or digits the first of which is positive. -/
inductive NumericIdentifier : Text → Prop
  | zero : NumericIdentifier [0x30]
  | digit {c : CodePoint} (first : isPositiveDigit c = true) : NumericIdentifier [c]
  | digits {c : CodePoint} {t : Text} (first : isPositiveDigit c = true)
      (rest : Repeated CodePoint.isAsciiDigit t) : NumericIdentifier (c :: t)

/-- Identifier characters, one of which is no digit. -/
inductive AlphanumericIdentifier : Text → Prop
  | alone {c : CodePoint} (letter : isLetter c = true) : AlphanumericIdentifier [c]
  | first {c : CodePoint} {t : Text} (letter : isLetter c = true)
      (behind : Repeated isIdentifierPoint t) : AlphanumericIdentifier (c :: t)
  | last {c : CodePoint} {t : Text} (front : Repeated isIdentifierPoint t)
      (letter : isLetter c = true) : AlphanumericIdentifier (t ++ [c])
  | inside {c : CodePoint} {t u : Text} (front : Repeated isIdentifierPoint t)
      (letter : isLetter c = true) (behind : Repeated isIdentifierPoint u) :
      AlphanumericIdentifier (t ++ c :: u)

/-- An identifier of a pre-release: a number has no zeros in front. -/
inductive PrereleaseIdentifier : Text → Prop
  | word {t : Text} (form : AlphanumericIdentifier t) : PrereleaseIdentifier t
  | number {t : Text} (form : NumericIdentifier t) : PrereleaseIdentifier t

/-- An identifier of a build: any digits will do. -/
inductive BuildIdentifier : Text → Prop
  | word {t : Text} (form : AlphanumericIdentifier t) : BuildIdentifier t
  | digits {t : Text} (form : Repeated CodePoint.isAsciiDigit t) : BuildIdentifier t

/-- Identifiers of a kind with points between them, at least one. -/
inductive DotSeparated (identifier : Text → Prop) : Text → List Text → Prop
  | one {t : Text} (only : identifier t) : DotSeparated identifier t [t]
  | more {t rest : Text} {others : List Text} (first : identifier t)
      (behind : DotSeparated identifier rest others) :
      DotSeparated identifier (t ++ 0x2E :: rest) (t :: others)

/-- Three numeric identifiers with points between them, and the numbers that they stand for. -/
inductive Core : Text → Nat → Nat → Nat → Prop
  | numbers {major minor patch : Text} (first : NumericIdentifier major)
      (second : NumericIdentifier minor) (third : NumericIdentifier patch) :
      Core (major ++ 0x2E :: minor ++ 0x2E :: patch) major.numeral minor.numeral patch.numeral

end Grammar

open Grammar

/-- What a version is derived from: its core, and the identifiers of a pre-release behind a hyphen
and those of a build behind a plus, where there are any. -/
inductive Derives : Text → Version → Prop
  | release {core : Text} {major minor patch : Nat} (numbers : Core core major minor patch) :
      Derives core ⟨major, minor, patch, [], []⟩
  | prerelease {core before : Text} {major minor patch : Nat} {prereleases : List Text}
      (numbers : Core core major minor patch)
      (named : DotSeparated PrereleaseIdentifier before prereleases) :
      Derives (core ++ 0x2D :: before) ⟨major, minor, patch, prereleases, []⟩
  | build {core behind : Text} {major minor patch : Nat} {builds : List Text}
      (numbers : Core core major minor patch) (built : DotSeparated BuildIdentifier behind builds) :
      Derives (core ++ 0x2B :: behind) ⟨major, minor, patch, [], builds⟩
  | full {core before behind : Text} {major minor patch : Nat} {prereleases builds : List Text}
      (numbers : Core core major minor patch)
      (named : DotSeparated PrereleaseIdentifier before prereleases)
      (built : DotSeparated BuildIdentifier behind builds) :
      Derives (core ++ 0x2D :: before ++ 0x2B :: behind) ⟨major, minor, patch, prereleases, builds⟩

/-! ## What the productions amount to -/

/-- All decimal digits of a text are ASCII. -/
def HasAsciiDigits (t : Text) : Prop := ∀ c ∈ t, c.isDecimal = true → c.isAsciiDigit = true

-- through the list: there are too many code points to go through
instance (t : Text) : Decidable (HasAsciiDigits t) := List.decidableBAll _ t

/-- In ASCII a decimal digit is one of ten. -/
theorem isAsciiDigit_of_isDecimal {c : CodePoint} (low : c.val < 0x80) (h : c.isDecimal = true) :
    c.isAsciiDigit = true := by
  unfold CodePoint.isDecimal CodePoint.decimalValue? at h
  rw [if_pos low] at h
  split at h
  · rename_i range
    simpa [CodePoint.isAsciiDigit] using range
  · exact absurd h (by simp)

theorem hasAsciiDigits_of_identifier {t : Text} (all : ∀ c ∈ t, isIdentifierPoint c = true) :
    HasAsciiDigits t := fun c member =>
  isAsciiDigit_of_isDecimal (range_of_isIdentifierPoint (all c member)).2

theorem isAsciiDigit_of_isLetter {c : CodePoint} (h : isLetter c = true) :
    c.isAsciiDigit = false := by
  simp only [isLetter, CodePoint.isAsciiLetter, CodePoint.isAsciiUpper, CodePoint.isAsciiLower,
    Bool.or_eq_true, Bool.and_eq_true, decide_eq_true_eq] at h
  simp only [CodePoint.isAsciiDigit, Bool.and_eq_false_iff, decide_eq_false_iff_not]
  rcases h with (h | h) | rfl
  · omega
  · omega
  · decide

theorem isDecimal_of_isLetter {c : CodePoint} (h : isLetter c = true) : c.isDecimal = false := by
  rw [Bool.eq_false_iff]
  intro decimal
  have point : isIdentifierPoint c = true := by rw [isIdentifierPoint, h, Bool.true_or]
  have digit := isAsciiDigit_of_isDecimal (range_of_isIdentifierPoint point).2 decimal
  rw [isAsciiDigit_of_isLetter h] at digit
  exact absurd digit (by simp)

namespace Grammar

variable {t : Text} {kind : CodePoint → Bool}

theorem repeated_iff : Repeated kind t ↔ t ≠ [] ∧ ∀ c ∈ t, kind c = true := by
  constructor
  · intro h
    induction h with
    | one here => simp [here]
    | more here _ ih => exact ⟨List.cons_ne_nil _ _, List.forall_mem_cons.mpr ⟨here, ih.2⟩⟩
  · rintro ⟨some, all⟩
    induction t with
    | nil => exact absurd rfl some
    | cons c rest ih =>
        obtain ⟨here, others⟩ := List.forall_mem_cons.mp all
        by_cases last : rest = []
        · rw [last]
          exact .one here
        · exact .more here (ih last others)

theorem isPositiveDigit_iff {c : CodePoint} :
    isPositiveDigit c = true ↔ c ≠ CodePoint.ofChar '0' ∧ c.isAsciiDigit = true := by
  have zero : c ≠ CodePoint.ofChar '0' ↔ c.val ≠ 0x30 := not_congr Fin.ext_iff
  simp only [isPositiveDigit, CodePoint.isAsciiDigit, Bool.and_eq_true, decide_eq_true_eq, zero]
  omega

/-- Numeric identifiers are numbers in ASCII digits. -/
theorem numericIdentifier_iff : NumericIdentifier t ↔ isNumber t = true ∧ HasAsciiDigits t := by
  constructor
  · intro h
    have shape : isNumber t = true ∧ ∀ c ∈ t, c.isAsciiDigit = true := by
      cases h with
      | zero => exact ⟨by decide, by simpa using (by decide : CodePoint.isAsciiDigit 0x30 = true)⟩
      | digit first =>
          obtain ⟨nonzero, digit⟩ := isPositiveDigit_iff.mp first
          refine ⟨?_, by simp [digit]⟩
          rw [isNumber, if_neg nonzero, digit]
          rfl
      | digits first rest =>
          obtain ⟨nonzero, digit⟩ := isPositiveDigit_iff.mp first
          obtain ⟨_, others⟩ := repeated_iff.mp rest
          refine ⟨?_, List.forall_mem_cons.mpr ⟨digit, others⟩⟩
          rw [isNumber, if_neg nonzero, digit, Bool.true_and, List.all_eq_true]
          exact fun d member => CodePoint.isDecimal_of_isAsciiDigit (others d member)
    exact ⟨shape.1, fun c member _ => shape.2 c member⟩
  · rintro ⟨number, plain⟩
    have digits : ∀ c ∈ t, c.isAsciiDigit = true := fun c member =>
      plain c member (isDecimal_of_isNumber number c member)
    cases t with
    | nil => exact absurd number (by decide)
    | cons c rest =>
        obtain ⟨here, others⟩ := List.forall_mem_cons.mp digits
        rw [isNumber] at number
        split at number
        · rename_i zero
          rw [List.isEmpty_iff.mp number, zero]
          exact .zero
        · rename_i nonzero
          have first := isPositiveDigit_iff.mpr ⟨nonzero, here⟩
          by_cases last : rest = []
          · rw [last]
            exact .digit first
          · exact .digits first (repeated_iff.mpr ⟨last, others⟩)

theorem alphanumericIdentifier_iff : AlphanumericIdentifier t ↔
    (∀ c ∈ t, isIdentifierPoint c = true) ∧ ∃ c ∈ t, isLetter c = true := by
  have point {c : CodePoint} (letter : isLetter c = true) : isIdentifierPoint c = true := by
    rw [isIdentifierPoint, letter, Bool.true_or]
  constructor
  · intro h
    cases h with
    | alone letter => simp [letter, point letter]
    | first letter behind =>
        obtain ⟨_, others⟩ := repeated_iff.mp behind
        exact ⟨List.forall_mem_cons.mpr ⟨point letter, others⟩, _, List.mem_cons_self, letter⟩
    | last front letter =>
        obtain ⟨_, others⟩ := repeated_iff.mp front
        refine ⟨List.forall_mem_append.mpr ⟨others, by simp [point letter]⟩, _, ?_, letter⟩
        exact List.mem_append_right _ List.mem_cons_self
    | inside front letter behind =>
        obtain ⟨_, before⟩ := repeated_iff.mp front
        obtain ⟨_, after⟩ := repeated_iff.mp behind
        refine ⟨List.forall_mem_append.mpr ⟨before, ?_⟩, _, ?_, letter⟩
        · exact List.forall_mem_cons.mpr ⟨point letter, after⟩
        · exact List.mem_append_right _ List.mem_cons_self
  · rintro ⟨all, c, member, letter⟩
    obtain ⟨front, behind, rfl⟩ := List.append_of_mem member
    obtain ⟨before, others⟩ := List.forall_mem_append.mp all
    obtain ⟨_, after⟩ := List.forall_mem_cons.mp others
    by_cases start : front = [] <;> by_cases final : behind = []
    · rw [start, final]
      exact .alone letter
    · rw [start]
      exact .first letter (repeated_iff.mpr ⟨final, after⟩)
    · rw [final]
      exact .last (repeated_iff.mpr ⟨start, before⟩) letter
    · exact .inside (repeated_iff.mpr ⟨start, before⟩) letter (repeated_iff.mpr ⟨final, after⟩)

/-- Alphanumeric identifiers are words in ASCII digits. -/
theorem alphanumericIdentifier_iff_isWord :
    AlphanumericIdentifier t ↔ isWord t = true ∧ HasAsciiDigits t := by
  rw [alphanumericIdentifier_iff]
  constructor
  · rintro ⟨all, c, member, letter⟩
    refine ⟨?_, hasAsciiDigits_of_identifier all⟩
    unfold isWord
    have inside : ∀ d ∈ t.dropWhile CodePoint.isDecimal, isIdentifierPoint d = true :=
      fun d there => all d ((List.dropWhile_suffix _).subset there)
    cases rest : t.dropWhile CodePoint.isDecimal with
    | nil =>
        have digit := List.dropWhile_eq_nil_iff.mp rest c member
        rw [isDecimal_of_isLetter letter] at digit
        exact absurd digit (by simp)
    | cons d others =>
        rw [rest] at inside
        obtain ⟨first, behind⟩ := List.forall_mem_cons.mp inside
        have other : ¬ d.isDecimal = true := by
          have none := List.head?_dropWhile_not CodePoint.isDecimal t
          simpa [rest] using none
        have letter : isLetter d = true := by
          rcases Bool.or_eq_true_iff.mp first with letter | digit
          · exact letter
          · exact absurd (CodePoint.isDecimal_of_isAsciiDigit digit) other
        simp only [letter, Bool.true_and, List.all_eq_true]
        exact behind
  · rintro ⟨word, plain⟩
    refine ⟨?_, ?_⟩
    · intro c member
      rcases isPart_of_isWord word c member with digit | point
      · rw [isIdentifierPoint, plain c member digit, Bool.or_true]
      · exact point
    · unfold isWord at word
      split at word
      · exact absurd word (by simp)
      · rename_i d others rest
        refine ⟨d, (List.dropWhile_suffix CodePoint.isDecimal).subset ?_,
          (Bool.and_eq_true_iff.mp word).1⟩
        rw [rest]
        exact List.mem_cons_self

theorem prereleaseIdentifier_iff :
    PrereleaseIdentifier t ↔ isPrereleaseIdentifier t = true ∧ HasAsciiDigits t := by
  rw [isPrereleaseIdentifier, Bool.or_eq_true, or_and_right, ← numericIdentifier_iff,
    ← alphanumericIdentifier_iff_isWord]
  constructor
  · intro h
    cases h with
    | word form => exact .inr form
    | number form => exact .inl form
  · rintro (form | form)
    · exact .number form
    · exact .word form

theorem buildIdentifier_iff : BuildIdentifier t ↔ isBuildIdentifier t = true := by
  have point {c : CodePoint} (digit : c.isAsciiDigit = true) : isIdentifierPoint c = true := by
    rw [isIdentifierPoint, digit, Bool.or_true]
  simp only [isBuildIdentifier, Bool.and_eq_true, Bool.not_eq_true', List.isEmpty_eq_false_iff,
    List.all_eq_true]
  constructor
  · intro h
    cases h with
    | word form =>
        obtain ⟨all, c, member, _⟩ := alphanumericIdentifier_iff.mp form
        exact ⟨List.ne_nil_of_mem member, all⟩
    | digits form =>
        obtain ⟨some, all⟩ := repeated_iff.mp form
        exact ⟨some, fun c member => point (all c member)⟩
  · rintro ⟨some, all⟩
    by_cases worded : ∃ c ∈ t, isLetter c = true
    · exact .word (alphanumericIdentifier_iff.mpr ⟨all, worded⟩)
    · refine .digits (repeated_iff.mpr ⟨some, fun c member => ?_⟩)
      rcases Bool.or_eq_true_iff.mp (all c member) with letter | digit
      · exact absurd ⟨c, member, letter⟩ worded
      · exact digit

variable {identifier : Text → Prop} {found : List Text}

theorem dotSeparated_iff : DotSeparated identifier t found ↔
    found ≠ [] ∧ t = Text.joined [0x2E] found ∧ ∀ i ∈ found, identifier i := by
  constructor
  · intro h
    induction h with
    | one only => exact ⟨List.cons_ne_nil _ _, rfl, by simpa using only⟩
    | @more t rest others first _ ih =>
        obtain ⟨some, rfl, all⟩ := ih
        refine ⟨List.cons_ne_nil _ _, ?_, List.forall_mem_cons.mpr ⟨first, all⟩⟩
        obtain ⟨next, others, rfl⟩ := List.exists_cons_of_ne_nil some
        simp [Text.joined]
  · rintro ⟨some, rfl, all⟩
    induction found with
    | nil => exact absurd rfl some
    | cons i others ih =>
        obtain ⟨first, behind⟩ := List.forall_mem_cons.mp all
        cases others with
        | nil => exact .one first
        | cons next others =>
            have rest := ih (List.cons_ne_nil _ _) behind
            have joined : Text.joined [0x2E] (i :: next :: others) =
                i ++ 0x2E :: Text.joined [0x2E] (next :: others) := by simp [Text.joined]
            rw [joined]
            exact .more first rest

/-- An optional part is its sign and identifiers behind it, or nothing. -/
theorem part_cases (sign : CodePoint) (all : ∀ i ∈ found, identifier i) :
    found = [] ∧ part [sign] found = [] ∨
      ∃ u, part [sign] found = sign :: u ∧ DotSeparated identifier u found := by
  by_cases none : found = []
  · subst none
    exact .inl ⟨rfl, rfl⟩
  · refine .inr ⟨Text.joined [0x2E] found, ?_, dotSeparated_iff.mpr ⟨none, rfl, all⟩⟩
    rw [part, if_neg (by simpa using none)]
    rfl

theorem DotSeparated.part_eq (h : DotSeparated identifier t found) (sign : CodePoint) :
    part [sign] found = sign :: t := by
  obtain ⟨some, rfl, _⟩ := dotSeparated_iff.mp h
  rw [part, if_neg (by simpa using some)]
  rfl

theorem core_iff {major minor patch : Nat} : Core t major minor patch ↔
    ∃ first second third : Text, t = Text.joined [0x2E] [first, second, third] ∧
      (∀ piece ∈ [first, second, third], NumericIdentifier piece) ∧
      [major, minor, patch] = [first, second, third].map Text.numeral := by
  constructor
  · intro h
    cases h with
    | @numbers first second third one two three =>
        exact ⟨first, second, third, by simp [Text.joined], by simp [one, two, three], rfl⟩
  · rintro ⟨first, second, third, rfl, all, values⟩
    simp only [List.forall_mem_cons] at all
    simp only [List.map_cons, List.map_nil, List.cons.injEq, and_true] at values
    obtain ⟨rfl, rfl, rfl⟩ := values
    have joined : Text.joined [0x2E] [first, second, third] =
        first ++ 0x2E :: second ++ 0x2E :: third := by simp [Text.joined]
    rw [joined]
    exact .numbers all.1 all.2.1 all.2.2.1

end Grammar

variable {t : Text} {v : Version}

/-- A derivation puts numeric identifiers and the identifiers of the version together. -/
theorem derives_iff : Derives t v ↔ ∃ major minor patch : Text,
    t = Text.joined [0x2E] [major, minor, patch] ++ part [0x2D] v.prerelease ++
      part [0x2B] v.build ∧
    (∀ piece ∈ [major, minor, patch], NumericIdentifier piece) ∧
    (∀ i ∈ v.prerelease, PrereleaseIdentifier i) ∧ (∀ i ∈ v.build, BuildIdentifier i) ∧
    v.core = [major, minor, patch].map Text.numeral := by
  have nothing (sign : CodePoint) : part [sign] [] = [] := rfl
  constructor
  · intro h
    cases h with
    | release numbers =>
        obtain ⟨major, minor, patch, rfl, all, values⟩ := core_iff.mp numbers
        exact ⟨major, minor, patch, by simp [nothing], all, by simp, by simp, values⟩
    | prerelease numbers named =>
        obtain ⟨major, minor, patch, rfl, all, values⟩ := core_iff.mp numbers
        obtain ⟨_, _, prereleases⟩ := dotSeparated_iff.mp named
        exact ⟨major, minor, patch, by simp [nothing, named.part_eq], all, prereleases, by simp,
          values⟩
    | build numbers built =>
        obtain ⟨major, minor, patch, rfl, all, values⟩ := core_iff.mp numbers
        obtain ⟨_, _, builds⟩ := dotSeparated_iff.mp built
        exact ⟨major, minor, patch, by simp [nothing, built.part_eq], all, by simp, builds, values⟩
    | full numbers named built =>
        obtain ⟨major, minor, patch, rfl, all, values⟩ := core_iff.mp numbers
        obtain ⟨_, _, prereleases⟩ := dotSeparated_iff.mp named
        obtain ⟨_, _, builds⟩ := dotSeparated_iff.mp built
        refine ⟨major, minor, patch, ?_, all, prereleases, builds, values⟩
        rw [named.part_eq, built.part_eq]
  · rintro ⟨major, minor, patch, rfl, all, prereleases, builds, values⟩
    have numbers := core_iff.mpr ⟨major, minor, patch, rfl, all, values⟩
    obtain ⟨first, second, third, prerelease, build⟩ := v
    rcases part_cases 0x2D prereleases with ⟨rfl, before⟩ | ⟨u, before, named⟩ <;>
      rcases part_cases 0x2B builds with ⟨rfl, behind⟩ | ⟨w, behind, built⟩ <;>
      simp only [before, behind, List.append_nil]
    · exact .release numbers
    · exact .build numbers built
    · exact .prerelease numbers named
    · exact .full numbers named built

/-! ## Reading what can be derived -/

/-- What is in a piece is in the text that is put together. -/
theorem mem_joined_of_mem {sep : Text} {pieces : List Text} {piece : Text} (h : piece ∈ pieces)
    {c : CodePoint} (inside : c ∈ piece) : c ∈ Text.joined sep pieces := by
  induction pieces with
  | nil => exact absurd h List.not_mem_nil
  | cons first rest ih =>
      cases rest with
      | nil => simpa [Text.joined, List.mem_singleton.mp h] using inside
      | cons next others =>
          rw [Text.joined, List.mem_append, List.mem_append]
          · rcases List.mem_cons.mp h with rfl | later
            · exact .inl (.inl inside)
            · exact .inr (ih later)
          · exact List.cons_ne_nil _ _

theorem mem_part_of_mem {sign : Text} {found : List Text} {i : Text} (h : i ∈ found)
    {c : CodePoint} (inside : c ∈ i) : c ∈ part sign found := by
  rw [part, if_neg (by simpa using List.ne_nil_of_mem h)]
  exact List.mem_append_right _ (mem_joined_of_mem h inside)

theorem hasAsciiDigits_sign {c : CodePoint} (plain : c.isDecimal = false) : HasAsciiDigits [c] := by
  intro d member decimal
  rw [List.mem_singleton.mp member, plain] at decimal
  exact absurd decimal (by simp)

theorem hasAsciiDigits_joined {sep : Text} {pieces : List Text} (plain : HasAsciiDigits sep)
    (all : ∀ piece ∈ pieces, HasAsciiDigits piece) : HasAsciiDigits (Text.joined sep pieces) := by
  intro c member
  rcases Text.mem_joined member with between | ⟨piece, inside, member⟩
  · exact plain c between
  · exact all piece inside c member

theorem hasAsciiDigits_part {sign : Text} {found : List Text} (plain : HasAsciiDigits sign)
    (all : ∀ i ∈ found, HasAsciiDigits i) : HasAsciiDigits (part sign found) := by
  unfold part
  split
  · exact List.forall_mem_nil _
  · exact List.forall_mem_append.mpr
      ⟨plain, hasAsciiDigits_joined (hasAsciiDigits_sign (by decide)) all⟩

/-- An optional part that was found is its sign and the identifiers, each of which passes. -/
theorem part_of_identifiers? {passes : Text → Bool} {o : Option Text} {found : List Text}
    (h : identifiers? passes o = some found) (sign : CodePoint) :
    o.elim [] (sign :: ·) = part [sign] found := by
  cases o with
  | none =>
      obtain rfl := Option.some.inj h
      rfl
  | some u =>
      simp only [identifiers?] at h
      split at h
      · obtain rfl := Option.some.inj h
        rw [part, if_neg (by simpa using Text.splitOn_ne_nil _ u)]
        exact congrArg (sign :: ·) (Text.joined_splitOn _ u).symm
      · exact absurd h (by simp)

/-- The numbers of a text with ASCII digits are numeric identifiers. -/
theorem numericIdentifier_of_parts? {major minor patch : Text} {prerelease build : List Text}
    (found : parts? t = some (major, minor, patch, prerelease, build)) (plain : HasAsciiDigits t) :
    ∀ piece ∈ [major, minor, patch], NumericIdentifier piece := by
  intro piece member
  have made := isMadeOf_of_parts? found
  obtain ⟨behind, last, form, _, _⟩ := made.text
  refine numericIdentifier_iff.mpr ⟨made.numbers piece member, fun c inside => plain c ?_⟩
  rw [form]
  exact List.mem_append_left _ (List.mem_append_left _ (mem_joined_of_mem member inside))

/-- The texts that can be derived are those with ASCII digits that have the parts of a version. -/
theorem derives_iff_parts : Derives t v ↔ HasAsciiDigits t ∧ ∃ major minor patch,
    parts? t = some (major, minor, patch, v.prerelease, v.build) ∧
    v.core = [major, minor, patch].map Text.numeral := by
  rw [derives_iff]
  constructor
  · rintro ⟨major, minor, patch, rfl, all, prereleases, builds, values⟩
    have found := parts?_joined (fun piece member => (numericIdentifier_iff.mp (all piece member)).1)
      (fun i member => (prereleaseIdentifier_iff.mp (prereleases i member)).1)
      (fun i member => buildIdentifier_iff.mp (builds i member))
    have core := hasAsciiDigits_joined (hasAsciiDigits_sign (c := 0x2E) (by decide))
      fun piece member => (numericIdentifier_iff.mp (all piece member)).2
    have before := hasAsciiDigits_part (hasAsciiDigits_sign (c := 0x2D) (by decide)) fun i member =>
      (prereleaseIdentifier_iff.mp (prereleases i member)).2
    have behind := hasAsciiDigits_part (hasAsciiDigits_sign (c := 0x2B) (by decide)) fun i member =>
      hasAsciiDigits_of_identifier fun c inside =>
        have whole := Bool.and_eq_true_iff.mp (buildIdentifier_iff.mp (builds i member))
        List.all_eq_true.mp whole.2 c inside
    refine ⟨?_, major, minor, patch, found, values⟩
    exact List.forall_mem_append.mpr ⟨List.forall_mem_append.mpr ⟨core, before⟩, behind⟩
  · rintro ⟨plain, major, minor, patch, found, values⟩
    have made := isMadeOf_of_parts? found
    obtain ⟨behind, last, form, prereleases, builds⟩ := made.text
    rw [part_of_identifiers? prereleases, part_of_identifiers? builds] at form
    refine ⟨major, minor, patch, form, numericIdentifier_of_parts? found plain, ?_, ?_, values⟩
    · intro i member
      refine prereleaseIdentifier_iff.mpr
        ⟨identifiers?_all prereleases i member, fun c inside => plain c ?_⟩
      rw [form]
      exact List.mem_append_left _ (List.mem_append_right _ (mem_part_of_mem member inside))
    · intro i member
      exact buildIdentifier_iff.mpr (identifiers?_all builds i member)

/-- A text is derived in one way. -/
theorem Derives.unique {w : Version} (h : Derives t v) (k : Derives t w) : v = w := by
  obtain ⟨_, major, minor, patch, found, values⟩ := derives_iff_parts.mp h
  obtain ⟨_, first, second, third, also, others⟩ := derives_iff_parts.mp k
  rw [found, Option.some.injEq] at also
  simp only [Prod.mk.injEq] at also
  obtain ⟨rfl, rfl, rfl, prerelease, build⟩ := also
  have core : v.core = w.core := values.trans others.symm
  cases v
  cases w
  simp only [Version.core, List.cons.injEq, and_true] at core
  simp_all

/-- Trimming takes no digits away. -/
theorem hasAsciiDigits_trimmed : HasAsciiDigits t.trimmed ↔ HasAsciiDigits t := by
  obtain ⟨left, right, form, before, after⟩ := Text.exists_trimmed t
  have blank {u : Text} (all : ∀ c ∈ u, c.isBlank = true) : HasAsciiDigits u := by
    intro c member decimal
    have none := CodePoint.isBlank_of_isDecimal decimal
    rw [all c member] at none
    exact absurd none (by simp)
  constructor
  · intro plain
    rw [form]
    exact List.forall_mem_append.mpr ⟨List.forall_mem_append.mpr ⟨blank before, plain⟩, blank after⟩
  · intro plain c member
    apply plain
    rw [form]
    exact List.mem_append_left _ (List.mem_append_right _ member)

/-- Numbers of a core that have no more digits than can be read. -/
def HasShortCore (v : Version) : Prop := ∀ n ∈ v.core, Decimal.isLong n = false

/-- A numeric identifier is read as its number, unless that is too long. -/
theorem number_eq (form : NumericIdentifier t) :
    number t =
      if Decimal.isLong t.numeral then .error (.number (.tooLong t.length)) else .ok t.numeral := by
  obtain ⟨isNumber, plain⟩ := numericIdentifier_iff.mp form
  have digits : ∀ c ∈ t, c.isAsciiDigit = true := fun c member =>
    plain c member (isDecimal_of_isNumber isNumber c member)
  have some : t ≠ [] := by
    rintro rfl
    exact absurd isNumber (by decide)
  have long : Decimal.isLong t.numeral = decide (Decimal.digitLimit < t.length) := by
    rw [Decimal.isLong, Int.natAbs_natCast, Text.ofNat_numeral isNumber digits]
  rw [number, Text.natural_of_digits some digits, long]
  simp only [gt_iff_lt, decide_eq_true_eq]
  split <;> rfl

/-- Reading a number fails only if it is too long. -/
theorem number_of_isNumber (form : isNumber t = true) :
    (∃ n, number t = .ok n) ∨ ∃ n, number t = .error (.number (.tooLong n)) := by
  have values : t.mapM CodePoint.decimalValue? =
      some (t.map fun c => c.decimalValue?.getD 0) := by
    apply mapM_eq_pure
    intro c member
    obtain ⟨d, value⟩ := Option.isSome_iff_exists.mp (isDecimal_of_isNumber form c member)
    rw [value]
    rfl
  unfold number Decimal.natural
  rw [values]
  cases t with
  | nil => exact absurd form (by decide)
  | cons c rest =>
      simp only [List.map_cons]
      split
      · exact .inr ⟨_, rfl⟩
      · exact .inl ⟨_, rfl⟩

/-- What is derived is read, unless a number is too long. -/
theorem parse_of_derives (h : Derives t.trimmed v) :
    (v.HasShortCore → parse t = .ok v) ∧
    (¬ v.HasShortCore → ∃ n, parse t = .error (.number (.tooLong n))) := by
  obtain ⟨plain, major, minor, patch, found, values⟩ := derives_iff_parts.mp h
  have numbers := numericIdentifier_of_parts? found plain
  simp only [List.forall_mem_cons] at numbers
  have read : parse t = (number major >>= fun first => number minor >>= fun second =>
      number patch >>= fun third => .ok ⟨first, second, third, v.prerelease, v.build⟩) := by
    unfold parse
    rw [found]
    rfl
  rw [read, number_eq numbers.1, number_eq numbers.2.1, number_eq numbers.2.2.1, HasShortCore, values]
  simp only [List.map_cons, List.map_nil, List.forall_mem_cons]
  cases one : Decimal.isLong major.numeral <;> cases two : Decimal.isLong minor.numeral <;>
    cases three : Decimal.isLong patch.numeral <;> simp [bind, Except.bind]
  cases v
  simpa [Version.core] using values.symm

/-- What is read with ASCII digits is derived. -/
theorem derives_of_parse (h : parse t = .ok v) (plain : HasAsciiDigits t.trimmed) :
    Derives t.trimmed v := by
  unfold parse at h
  split at h
  · exact absurd h (by simp)
  · rename_i major minor patch prerelease build found
    obtain ⟨first, one, h⟩ := bind_eq_ok.mp h
    obtain ⟨second, two, h⟩ := bind_eq_ok.mp h
    obtain ⟨third, three, h⟩ := bind_eq_ok.mp h
    obtain rfl := Except.ok.inj h
    have numbers := numericIdentifier_of_parts? found plain
    have value {piece : Text} {n : Nat} (form : NumericIdentifier piece)
        (given : number piece = .ok n) : n = piece.numeral := by
      rw [number_eq form] at given
      split at given
      · exact absurd given (by simp)
      · exact (Except.ok.inj given).symm
    simp only [List.forall_mem_cons] at numbers
    refine derives_iff_parts.mpr ⟨plain, major, minor, patch, found, ?_⟩
    simp [core, value numbers.1 one, value numbers.2.1 two, value numbers.2.2.1 three]

/-- A text is refused because it has no parts of a version, or because a number is too long. -/
theorem parse_eq_error {e : VersionError} (h : parse t = .error e) :
    e = .malformed t ∧ parts? t.trimmed = none ∨ ∃ n, e = .number (.tooLong n) := by
  unfold parse at h
  split at h
  · rename_i none
    exact .inl ⟨(Except.error.inj h).symm, none⟩
  · rename_i major minor patch prerelease build found
    have numbers := (isMadeOf_of_parts? found).numbers
    have failed {piece : Text} (member : piece ∈ [major, minor, patch])
        (refused : number piece = .error e) : ∃ n, e = .number (.tooLong n) := by
      rcases number_of_isNumber (numbers piece member) with ⟨n, given⟩ | ⟨n, given⟩
      · exact absurd (given.symm.trans refused) (by simp)
      · exact ⟨n, Except.error.inj (refused.symm.trans given)⟩
    right
    rcases bind_eq_error.mp h with refused | ⟨_, _, h⟩
    · exact failed (by simp) refused
    rcases bind_eq_error.mp h with refused | ⟨_, _, h⟩
    · exact failed (by simp) refused
    rcases bind_eq_error.mp h with refused | ⟨_, _, h⟩
    · exact failed (by simp) refused
    · exact absurd h (by simp [pure, Except.pure])

/-- A text whose decimal digits are ASCII is read exactly if it is derived once the blanks around it
are gone, as the version that is derived, and it is refused as malformed if it is not; only numbers
with more digits than can be read are refused though derived. A text with another digit is not
derived. A derivation gives one version, and nothing is refused but malformed texts and long numbers,
as bad values. -/
theorem parse_follows_grammar (t : Text) :
    (HasAsciiDigits t → ∀ v, parse t = .ok v ↔ Derives t.trimmed v ∧ v.HasShortCore) ∧
    (HasAsciiDigits t → (∀ v, ¬ Derives t.trimmed v) → parse t = .error (.malformed t)) ∧
    (∀ v, Derives t.trimmed v → ¬ v.HasShortCore →
      ∃ n, parse t = .error (.number (.tooLong n))) ∧
    (¬ HasAsciiDigits t → ∀ v, ¬ Derives t.trimmed v) ∧
    (∀ v w, Derives t.trimmed v → Derives t.trimmed w → v = w) ∧
    (∀ e, parse t = .error e → (e = .malformed t ∨ ∃ n, e = .number (.tooLong n)) ∧
      (Fault.ofVersion e).kindName = "ValueError") := by
  refine ⟨?_, ?_, fun v derived => (parse_of_derives derived).2, ?_,
    fun v w derived other => derived.unique other,
    fun e refused => ⟨(parse_eq_error refused).imp_left And.left, rfl⟩⟩
  · intro plain v
    constructor
    · intro read
      have derived := derives_of_parse read (hasAsciiDigits_trimmed.mpr plain)
      refine ⟨derived, ?_⟩
      by_contra long
      obtain ⟨n, refused⟩ := (parse_of_derives derived).2 long
      exact absurd (read.symm.trans refused) (by simp)
    · rintro ⟨derived, short⟩
      exact (parse_of_derives derived).1 short
  · intro plain none
    have missing : parts? t.trimmed = .none := by
      cases found : parts? t.trimmed with
      | none => rfl
      | some parts =>
          obtain ⟨major, minor, patch, prerelease, build⟩ := parts
          have derived : Derives t.trimmed
              ⟨major.numeral, minor.numeral, patch.numeral, prerelease, build⟩ :=
            derives_iff_parts.mpr
              ⟨hasAsciiDigits_trimmed.mpr plain, major, minor, patch, found, rfl⟩
          exact absurd derived (none _)
    rw [parse, missing]
  · intro foreign v derived
    exact foreign (hasAsciiDigits_trimmed.mp (derives_iff_parts.mp derived).1)

end Version

namespace Sample

open Version

/-- A version with a pre-release and a build, and a blank in front. -/
def fullText : Text := " 1.20.3-rc.1-x.0+007.a"

set_option maxRecDepth 100000 in
/-- A text with all parts is derived as the version that is read from it. -/
theorem parse_follows_grammar_full : HasAsciiDigits fullText ∧
    Derives fullText.trimmed ⟨1, 20, 3, ["rc", "1-x", "0"], ["007", "a"]⟩ := by
  have plain : HasAsciiDigits fullText := by decide +kernel
  have read : parse fullText = .ok ⟨1, 20, 3, ["rc", "1-x", "0"], ["007", "a"]⟩ := by rfl
  exact ⟨plain, (((parse_follows_grammar fullText).1 plain _).mp read).1⟩

/-- Three numbers, the first of which has a digit that is not ASCII. -/
def wideText : Text := "1\uFF11.0.0"

set_option maxRecDepth 100000 in
/-- A text that cannot be derived is read. -/
theorem wide_read_underived :
    parse wideText = .ok ⟨11, 0, 0, [], []⟩ ∧ ∀ v, ¬ Derives wideText.trimmed v := by
  refine ⟨by rfl, fun v derived => ?_⟩
  have foreign : ¬ HasAsciiDigits wideText.trimmed := by decide +kernel
  exact foreign (derives_iff_parts.mp derived).1

end Sample

end ModulePackaging
