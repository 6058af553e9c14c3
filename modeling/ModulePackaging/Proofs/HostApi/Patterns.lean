import ModulePackaging.HostApi.Changes
import ModulePackaging.Proofs.VersionOrder
import ModulePackaging.Proofs.VersionText

/-!
# Patterns of versions

A pattern is meant as a version or as the first numbers of versions. Which of the two it is taken
for is told by counting the pieces between its points, before anything is read. So a version with
points in its pre-release or its build is taken for numbers, and is refused: as a pattern not even
the version itself passes it. All other patterns mean what they say, except for numbers that are too
long to be converted.

Main statement (`availability_follows_patterns`).
-/

namespace ModulePackaging

open Version Version.Grammar

/-! ## What patterns say -/

/-- What a pattern stands for. -/
inductive PatternMeaning
  | version (w : Version)
  | numbers (components : List Text)

namespace PatternMeaning

/-- The texts that a meaning is written as: the text of a version, or one or two numerals with a
point between them. -/
def IsWritten : PatternMeaning → Text → Prop
  | version w, t => Derives t w
  | numbers components, t => (components.length = 1 ∨ components.length = 2) ∧
      (∀ component ∈ components, component.IsNumeral) ∧ t = Text.joined [0x2E] components

/-- The versions that a meaning is about: those of the rank of a version, or those that begin with
some numbers. -/
def Matches (v : Version) : PatternMeaning → Prop
  | version w => v.rank = w.rank
  | numbers components => components.map Text.value <+: v.core

instance (v : Version) : (meaning : PatternMeaning) → Decidable (meaning.Matches v)
  | version w => inferInstanceAs (Decidable (v.rank = w.rank))
  | numbers components => inferInstanceAs (Decidable (components.map Text.value <+: v.core))

/-- A version with a point in its pre-release or its build. -/
def IsDotted : PatternMeaning → Prop
  | version w => 1 < w.prerelease.length ∨ 1 < w.build.length
  | numbers _ => False

/-- A meaning with a number that is too long to be read, or to be compared with a version. -/
def IsBeyond (v : Version) : PatternMeaning → Prop
  | version w => ¬ w.HasShortCore ∨ IsStuck v w
  | numbers components => ∃ component ∈ components, Decimal.digitLimit < component.length

end PatternMeaning

/-- A pattern: a text, blanks around it left aside, and what it stands for. -/
structure Pattern where
  text : Text
  meaning : PatternMeaning
  written : meaning.IsWritten text.trimmed

/-- The pattern that is the text of a version. -/
def Pattern.ofDerives {t : Text} {w : Version} (h : Derives t w) : Pattern :=
  ⟨t, .version w, h.trimmed_eq.symm ▸ h⟩

namespace Version

/-- A version that patterns let through: it matches no invalid one, and a valid one if there are
any. -/
def Passes (v : Version) (valid invalid : List Pattern) : Prop :=
  (∀ p ∈ invalid, ¬ p.meaning.Matches v) ∧ (valid = [] ∨ ∃ p ∈ valid, p.meaning.Matches v)

instance (v : Version) (valid invalid : List Pattern) : Decidable (v.Passes valid invalid) :=
  inferInstanceAs (Decidable (_ ∧ _))

variable {t : Text} {v w : Version} {p : Pattern} {patterns valid invalid : List Pattern}

/-! ## The pieces of a text -/

/-- A point stands in a part of a version if there are two identifiers or more. -/
theorem point_mem_part {sign : CodePoint} {found : List Text} (other : sign ≠ 0x2E)
    (made : ∀ i ∈ found, ∀ c ∈ i, IsPart c) : 0x2E ∈ part [sign] found ↔ 1 < found.length := by
  by_cases none : found = []
  · rw [none]
    exact iff_of_false List.not_mem_nil (Nat.not_lt_zero 1)
  · have pieces : Text.splitOn 0x2E (Text.joined [0x2E] found) = found := by
      apply Text.splitOn_joined _ _ none
      intro i member c inside
      exact isPart_ne (made i member c inside) (by decide) (by decide)
    have positive := List.length_pos_of_ne_nil none
    have points : 0x2E ∈ Text.joined [0x2E] found ↔ ¬ found.length = 1 := by
      rw [← not_iff_not, not_not, ← Text.length_splitOn_eq_one_iff, pieces]
    have form : part [sign] found = sign :: Text.joined [0x2E] found := by
      rw [part, if_neg (by simpa using none)]
      rfl
    rw [form, List.mem_cons, points, or_iff_right other.symm]
    omega

/-- No point is a digit. -/
theorem point_notMem_numeral {number : Text} (numeral : number.IsNumeral) : 0x2E ∉ number := by
  intro member
  exact CodePoint.ne_of_isDecimal (numeral.2 _ member) (by decide) rfl

/-- What is behind the core of a version: nothing, or a sign and more. -/
theorem parts_behind (prerelease build : List Text) :
    part [0x2D] prerelease ++ part [0x2B] build = [] ∨ ∃ sign rest,
      part [0x2D] prerelease ++ part [0x2B] build = sign :: rest ∧ (sign = 0x2D ∨ sign = 0x2B) := by
  cases prerelease with
  | cons i more => exact .inr ⟨_, _, rfl, .inl rfl⟩
  | nil =>
      cases build with
      | cons i more => exact .inr ⟨_, _, rfl, .inr rfl⟩
      | nil => exact .inl rfl

/-- A text of the grammar has its first two numbers in front of points, and everything else behind
them. -/
theorem splitOn_of_derives (h : Derives t w) : ∃ major minor patch behind : Text,
    t.splitOn 0x2E = major :: minor :: (patch ++ behind).splitOn 0x2E ∧
    patch.IsNumeral ∧
    (behind = [] ∨ ∃ sign rest, behind = sign :: rest ∧ (sign = 0x2D ∨ sign = 0x2B)) ∧
    (0x2E ∈ behind ↔ (PatternMeaning.version w).IsDotted) := by
  obtain ⟨major, minor, patch, rfl, numbers, prereleases, builds, _⟩ := derives_iff.mp h
  have numeral : ∀ piece ∈ [major, minor, patch], piece.IsNumeral := by
    intro piece member
    obtain ⟨number, _⟩ := numericIdentifier_iff.mp (numbers piece member)
    refine ⟨?_, isDecimal_of_isNumber number⟩
    rintro rfl
    exact absurd number (by decide)
  have alone : ∀ piece ∈ [major, minor, patch], piece.splitOn 0x2E = [piece] := by
    intro piece member
    exact Text.splitOn_of_notMem (point_notMem_numeral (numeral piece member))
  refine ⟨major, minor, patch, part [0x2D] w.prerelease ++ part [0x2B] w.build, ?_,
    numeral patch (by simp), parts_behind _ _, ?_⟩
  · have form : Text.joined [0x2E] [major, minor, patch] ++ part [0x2D] w.prerelease ++
        part [0x2B] w.build = major ++ 0x2E :: (minor ++ 0x2E ::
          (patch ++ (part [0x2D] w.prerelease ++ part [0x2B] w.build))) := by
      simp [Text.joined]
    rw [form, Text.splitOn_append_cons, Text.splitOn_append_cons, alone major (by simp),
      alone minor (by simp)]
    rfl
  · have before : 0x2E ∈ part [0x2D] w.prerelease ↔ 1 < w.prerelease.length := by
      apply point_mem_part (by decide)
      intro i member
      exact isPart_of_isPrereleaseIdentifier (prereleaseIdentifier_iff.mp (prereleases i member)).1
    have after : 0x2E ∈ part [0x2B] w.build ↔ 1 < w.build.length := by
      apply point_mem_part (by decide)
      intro i member
      exact isPart_of_isBuildIdentifier (buildIdentifier_iff.mp (builds i member))
    rw [List.mem_append, before, after]
    rfl

/-- A number with a sign behind it is no number. -/
theorem whole_of_sign {number rest : Text} {sign : CodePoint} (numeral : number.IsNumeral)
    (form : sign = 0x2D ∨ sign = 0x2B) :
    ∃ e, Decimal.whole (number ++ sign :: rest) = .error e := by
  have foreign : sign.decimalValue? = none ∧ sign ≠ '_' ∧ Decimal.isNumberBlank sign = false := by
    rcases form with rfl | rfl
    · decide
    · decide
  have stops (read : List Nat) : Decimal.takeDigits? false read (sign :: rest) =
      some (read.reverse, sign :: rest) := by
    rw [Decimal.takeDigits?, foreign.1]
    exact if_neg foreign.2.1
  rw [Decimal.whole_append numeral stops, List.all_cons, foreign.2.2]
  split
  · exact ⟨_, rfl⟩
  · exact ⟨_, rfl⟩

/-! ## Comparing with a pattern -/

/-- A pattern of three pieces is taken for a version. -/
theorem isLike_of_three (three : (t.trimmed.splitOn 0x2E).length = 3) :
    v.isLike t = ((parse t.trimmed).mapError .badVersion >>= fun w =>
      (v.sameRank w).mapError .badVersion) := by
  unfold isLike
  exact if_pos three

/-- A pattern of more or fewer pieces is taken for numbers. -/
theorem isLike_of_other {pieces : List Text} (split : t.trimmed.splitOn 0x2E = pieces)
    (other : pieces.length ≠ 3) : v.isLike t = match pieces.mapM Decimal.whole with
      | .error _ => .error (.badPattern t)
      | .ok numbers => .ok ((v.core.take numbers.length).map Int.ofNat == numbers) := by
  subst split
  unfold isLike
  exact if_neg other

/-- A version with further points is refused: its third piece is taken for a number, and has a sign
behind its digits. -/
theorem isLike_of_dotted (derived : Derives t.trimmed w)
    (dotted : (PatternMeaning.version w).IsDotted) : v.isLike t = .error (.badPattern t) := by
  obtain ⟨major, minor, patch, behind, pieces, numeral, signed, points⟩ :=
    splitOn_of_derives derived
  have inside : 0x2E ∈ behind := points.mpr dotted
  obtain ⟨sign, rest, rfl, form⟩ := signed.resolve_left (List.ne_nil_of_mem inside)
  have other : sign ≠ 0x2E := by
    rcases form with rfl | rfl
    · decide
    · decide
  obtain ⟨first, others, split⟩ := List.exists_cons_of_ne_nil (Text.splitOn_ne_nil 0x2E rest)
  have third : (patch ++ sign :: rest).splitOn 0x2E = (patch ++ sign :: first) :: others := by
    have none : 0x2E ∉ patch ++ [sign] := by
      intro member
      rcases List.mem_append.mp member with member | member
      · exact point_notMem_numeral numeral member
      · exact other (List.mem_singleton.mp member).symm
    simpa using Text.splitOn_append_of_none none split
  -- the sign does not part pieces, so the point is further behind and there are four at least
  have more : (major :: minor :: (patch ++ sign :: first) :: others).length ≠ 3 := by
    rw [← third]
    intro three
    have single : ((patch ++ sign :: rest).splitOn 0x2E).length = 1 := by simpa using three
    exact Text.length_splitOn_eq_one_iff.mp single (List.mem_append_right _ inside)
  have member : patch ++ sign :: first ∈ major :: minor :: (patch ++ sign :: first) :: others := by
    simp
  obtain ⟨e, refused⟩ := mapM_error_of_mem member (whole_of_sign numeral form)
  rw [third] at pieces
  rw [isLike_of_other pieces more, refused]

/-- Any other version is read, and compared with. -/
theorem isLike_of_derives (derived : Derives t.trimmed w)
    (plain : ¬ (PatternMeaning.version w).IsDotted) :
    v.isLike t = ((parse t.trimmed).mapError .badVersion >>= fun w =>
      (v.sameRank w).mapError .badVersion) := by
  obtain ⟨major, minor, patch, behind, pieces, numeral, _, points⟩ := splitOn_of_derives derived
  have none : 0x2E ∉ patch ++ behind := by
    intro member
    rcases List.mem_append.mp member with member | member
    · exact point_notMem_numeral numeral member
    · exact plain (points.mp member)
  apply isLike_of_three
  rw [pieces, List.length_cons, List.length_cons, Text.length_splitOn_eq_one_iff.mpr none]

/-- The first numbers of a version are certain ones exactly if it begins with them. -/
theorem take_core_eq_iff {numbers : List Nat} :
    (v.core.take numbers.length).map Int.ofNat = numbers.map Int.ofNat ↔ numbers <+: v.core := by
  rw [List.prefix_iff_eq_take, eq_comm (a := numbers)]
  exact (List.map_injective_iff.mpr fun _ _ => Int.ofNat.inj).eq_iff

/-- Numerals are compared with the first numbers, if all of them can be read. -/
theorem isLike_of_numbers {components : List Text}
    (written : (PatternMeaning.numbers components).IsWritten t.trimmed) :
    v.isLike t = if ∀ component ∈ components, component.length ≤ Decimal.digitLimit then
      .ok (decide (components.map Text.value <+: v.core)) else .error (.badPattern t) := by
  obtain ⟨count, numerals, form⟩ := written
  have some : components ≠ [] := by
    rintro rfl
    simp at count
  have pieces : t.trimmed.splitOn 0x2E = components := by
    rw [form]
    apply Text.splitOn_joined _ _ some
    intro component member c inside
    exact ne_of_mem_of_not_mem inside (point_notMem_numeral (numerals component member))
  have other : components.length ≠ 3 := by omega
  rw [isLike_of_other pieces other]
  by_cases short : ∀ component ∈ components, component.length ≤ Decimal.digitLimit
  · have values : components.mapM Decimal.whole =
        .ok (components.map fun component => Int.ofNat component.value) := by
      apply mapM_eq_pure
      intro component member
      rw [Decimal.whole_numeral (numerals component member),
        if_neg (Nat.not_lt.mpr (short component member))]
      rfl
    have begins := @take_core_eq_iff v (components.map Text.value)
    rw [List.length_map, List.map_map] at begins
    rw [if_pos short, values]
    simp only [List.length_map, beq_eq_decide]
    exact congrArg Except.ok (decide_eq_decide.mpr begins)
  · obtain ⟨component, member, long⟩ :
        ∃ component ∈ components, Decimal.digitLimit < component.length := by
      simpa using short
    have unread : Decimal.whole component = .error (.tooLong component.length) := by
      rw [Decimal.whole_numeral (numerals component member), if_pos long]
    obtain ⟨e, refused⟩ := mapM_error_of_mem member ⟨_, unread⟩
    rw [if_neg short, refused]

/-- A pattern is refused if it has further points, or a number that is too long; any other one tells
whether the version is one of those that it is about. -/
theorem isLike_text (standard : v.IsStandard) (p : Pattern) :
    (p.meaning.IsDotted → v.isLike p.text = .error (.badPattern p.text)) ∧
    (¬ p.meaning.IsDotted → p.meaning.IsBeyond v → ∃ e, v.isLike p.text = .error e) ∧
    (¬ p.meaning.IsDotted → ¬ p.meaning.IsBeyond v →
      v.isLike p.text = .ok (decide (p.meaning.Matches v))) := by
  obtain ⟨t, meaning, written⟩ := p
  cases meaning with
  | version w =>
      have derived : Derives t.trimmed w := written
      refine ⟨isLike_of_dotted derived, fun plain beyond => ?_, fun plain within => ?_⟩
      · rw [isLike_of_derives derived plain]
        rw [← Text.trimmed_trimmed] at derived
        by_cases short : w.HasShortCore
        · obtain ⟨e, refused⟩ :=
            sameRank_of_stuck standard derived.isStandard (beyond.resolve_left (not_not.mpr short))
          rw [(parse_of_derives derived).1 short]
          exact ⟨_, mapError_eq_error.mpr ⟨e, refused, rfl⟩⟩
        · obtain ⟨n, refused⟩ := (parse_of_derives derived).2 short
          rw [refused]
          exact ⟨_, rfl⟩
      · obtain ⟨short, free⟩ := not_or.mp within
        rw [isLike_of_derives derived plain]
        rw [← Text.trimmed_trimmed] at derived
        rw [(parse_of_derives derived).1 (not_not.mp short)]
        exact mapError_eq_ok.mpr (sameRank_of_free standard derived.isStandard free)
  | numbers components =>
      refine ⟨False.elim, fun _ beyond => ?_, fun _ within => ?_⟩
      · obtain ⟨component, member, long⟩ := beyond
        have beyond : ¬ ∀ component ∈ components, component.length ≤ Decimal.digitLimit :=
          fun short => Nat.not_lt.mpr (short component member) long
        exact ⟨_, (isLike_of_numbers written).trans (if_neg beyond)⟩
      · have short : ∀ component ∈ components, component.length ≤ Decimal.digitLimit := by
          intro component member
          by_contra long
          exact within ⟨component, member, Nat.not_le.mp long⟩
        exact (isLike_of_numbers written).trans (if_pos short)

/-! ## Going through patterns -/

/-- A refusal that comes from one of some patterns, which has further points or a number that is too
long. -/
def Refuses (v : Version) (patterns : List Pattern) (e : PatternError) : Prop :=
  ∃ p ∈ patterns, (p.meaning.IsDotted ∨ p.meaning.IsBeyond v) ∧ v.isLike p.text = .error e

theorem Refuses.mono {more : List Pattern} {e : PatternError} (h : v.Refuses patterns e)
    (wider : patterns ⊆ more) : v.Refuses more e := by
  obtain ⟨p, member, cause, refused⟩ := h
  exact ⟨p, wider member, cause, refused⟩

theorem isLike_agrees (standard : v.IsStandard) (p : Pattern) :
    EqUnless (v.Refuses [p]) (v.isLike p.text) (.ok (decide (p.meaning.Matches v))) := by
  obtain ⟨dotted, beyond, given⟩ := isLike_text standard p
  -- points are noticed before anything is read, so they are asked for first
  by_cases points : p.meaning.IsDotted
  · exact .inr ⟨_, ⟨p, List.mem_cons_self, .inl points, dotted points⟩, dotted points⟩
  by_cases long : p.meaning.IsBeyond v
  · obtain ⟨e, refused⟩ := beyond points long
    exact .inr ⟨e, ⟨p, List.mem_cons_self, .inr long, refused⟩, refused⟩
  · exact .inl (given points long)

/-- Patterns are gone through up to the first one that the version matches. -/
theorem isLikeAny_agrees (standard : v.IsStandard) (patterns : List Pattern) :
    EqUnless (v.Refuses patterns) (v.isLikeAny (patterns.map Pattern.text))
      (.ok (decide (∃ p ∈ patterns, p.meaning.Matches v))) := by
  induction patterns with
  | nil => exact .of_eq (by simp [isLikeAny])
  | cons p rest ih =>
      have inside : [p] ⊆ p :: rest := by simp
      have first := (isLike_agrees standard p).mono fun e refused => refused.mono inside
      refine first.bind_ok ?_
      by_cases here : p.meaning.Matches v
      · have found : ∃ q ∈ p :: rest, q.meaning.Matches v := ⟨p, List.mem_cons_self, here⟩
        rw [decide_eq_true here, decide_eq_true found]
        exact .refl _
      · have later : (∃ q ∈ p :: rest, q.meaning.Matches v) ↔ ∃ q ∈ rest, q.meaning.Matches v := by
          simp [here]
        rw [decide_eq_false here, decide_eq_decide.mpr later]
        exact ih.mono fun e refused => refused.mono (List.subset_cons_self p rest)

/-- Whether a version is available is told by what the patterns say. -/
theorem isAvailable_agrees (standard : v.IsStandard) (valid invalid : List Pattern) :
    EqUnless (v.Refuses (invalid ++ valid))
      (v.isAvailable (valid.map Pattern.text) (invalid.map Pattern.text))
      (.ok (decide (v.Passes valid invalid))) := by
  have out := (isLikeAny_agrees standard invalid).mono fun e refused =>
    refused.mono (List.subset_append_left invalid valid)
  refine out.bind_ok ?_
  by_cases excluded : ∃ p ∈ invalid, p.meaning.Matches v
  · have fails : ¬ v.Passes valid invalid := by
      obtain ⟨p, member, here⟩ := excluded
      exact fun passes => passes.1 p member here
    rw [decide_eq_true excluded, decide_eq_false fails]
    exact .refl _
  · have free : ∀ p ∈ invalid, ¬ p.meaning.Matches v := by simpa using excluded
    rw [decide_eq_false excluded]
    by_cases none : valid = []
    · have passes : v.Passes valid invalid := ⟨free, .inl none⟩
      rw [decide_eq_true passes, none]
      exact .refl _
    · have passes : v.Passes valid invalid ↔ ∃ p ∈ valid, p.meaning.Matches v :=
        ⟨fun passes => passes.2.resolve_left none, fun found => ⟨free, .inr found⟩⟩
      have some : (valid.map Pattern.text).isEmpty = false := by simpa using none
      simp only [Bool.false_eq_true, if_false, some, decide_eq_decide.mpr passes]
      exact (isLikeAny_agrees standard valid).mono fun e refused =>
        refused.mono (List.subset_append_right invalid valid)

/-- A pattern is refused if it has points in its pre-release or its build, or a number that is too
long; any other one tells whether the version is one of those that it is about. So what patterns say
of a version is what it is available by, unless one of those that are refused is met. A version with
at most one identifier of each kind and no number that is too long is let through and kept out by
its own text. -/
theorem availability_follows_patterns (standard : v.IsStandard) (valid invalid : List Pattern) :
    (∀ p : Pattern,
      (p.meaning.IsDotted → v.isLike p.text = .error (.badPattern p.text)) ∧
      (¬ p.meaning.IsDotted → p.meaning.IsBeyond v → ∃ e, v.isLike p.text = .error e) ∧
      (¬ p.meaning.IsDotted → ¬ p.meaning.IsBeyond v →
        v.isLike p.text = .ok (decide (p.meaning.Matches v)))) ∧
    EqUnless (v.Refuses (invalid ++ valid))
      (v.isAvailable (valid.map Pattern.text) (invalid.map Pattern.text))
      (.ok (decide (v.Passes valid invalid))) ∧
    ((∀ p ∈ invalid ++ valid, ¬ p.meaning.IsDotted ∧ ¬ p.meaning.IsBeyond v) →
      v.isAvailable (valid.map Pattern.text) (invalid.map Pattern.text) =
        .ok (decide (v.Passes valid invalid))) ∧
    (Derives v.toText v → v.prerelease.length ≤ 1 → v.build.length ≤ 1 → v.HasShortCore →
      v.isAvailable [v.toText] [] = .ok true ∧ v.isAvailable [] [v.toText] = .ok false) := by
  have available {valid invalid : List Pattern}
      (free : ∀ p ∈ invalid ++ valid, ¬ p.meaning.IsDotted ∧ ¬ p.meaning.IsBeyond v) :
      v.isAvailable (valid.map Pattern.text) (invalid.map Pattern.text) =
        .ok (decide (v.Passes valid invalid)) := by
    rcases isAvailable_agrees standard valid invalid with given | ⟨e, ⟨p, member, cause, _⟩, _⟩
    · exact given
    · exact absurd cause (not_or.mpr (free p member))
  refine ⟨isLike_text standard, isAvailable_agrees standard valid invalid, available, ?_⟩
  intro derived names builds short
  have plain : ¬ (PatternMeaning.version v).IsDotted :=
    not_or.mpr ⟨Nat.not_lt.mpr names, Nat.not_lt.mpr builds⟩
  have within : ¬ (PatternMeaning.version v).IsBeyond v :=
    not_or.mpr ⟨not_not.mpr short, fun stuck => stuck.identifiers.ne rfl⟩
  have own : ∀ p ∈ [Pattern.ofDerives derived], ¬ p.meaning.IsDotted ∧ ¬ p.meaning.IsBeyond v := by
    intro p member
    rw [List.mem_singleton.mp member]
    exact ⟨plain, within⟩
  have matched : (Pattern.ofDerives derived).meaning.Matches v := rfl
  constructor
  · have passes : v.Passes [Pattern.ofDerives derived] [] :=
      ⟨List.forall_mem_nil _, .inr ⟨_, List.mem_cons_self, matched⟩⟩
    have given := @available [Pattern.ofDerives derived] [] own
    rwa [decide_eq_true passes] at given
  · have fails : ¬ v.Passes [] [Pattern.ofDerives derived] := fun passes =>
      passes.1 _ List.mem_cons_self matched
    have given := @available [] [Pattern.ofDerives derived] (by simpa using own)
    rwa [decide_eq_false fails] at given

end Version

namespace Sample

open Version

/-- A candidate for a release, in a certain build. -/
def candidate : Version := ⟨6, 0, 173, ["rc"], ["7"]⟩

theorem derives_candidate : Derives candidate.toText candidate := by
  have read : parse candidate.toText = .ok candidate := by rfl
  exact derives_of_bare read (by decide +kernel) (by decide +kernel)

/-- The numbers that the candidate begins with, with a zero and a blank in front. -/
def candidateNumbers : Pattern :=
  ⟨" 06.0", .numbers ["06", "0"], .inr rfl, by decide, by decide +kernel⟩

/-- The candidate is let through and kept out by its own text, and let through by its first
numbers. -/
theorem availability_of_candidate :
    candidate.IsStandard ∧ Derives candidate.toText candidate ∧
    candidate.isAvailable [candidate.toText] [] = .ok true ∧
    candidate.isAvailable [] [candidate.toText] = .ok false ∧
    candidate.isAvailable [" 06.0"] [] = .ok true := by
  have standard : candidate.IsStandard := by decide
  have short : candidate.HasShortCore := by decide
  have free : ∀ p ∈ [candidateNumbers], ¬ p.meaning.IsDotted ∧ ¬ p.meaning.IsBeyond candidate := by
    intro p member
    rw [List.mem_singleton.mp member]
    refine ⟨id, ?_⟩
    show ¬ ∃ component ∈ (["06", "0"] : List Text), Decimal.digitLimit < component.length
    decide
  obtain ⟨_, _, available, own⟩ := availability_follows_patterns standard [candidateNumbers] []
  obtain ⟨through, out⟩ := own derives_candidate (by decide) (by decide) short
  have given := available free
  have passes : candidate.Passes [candidateNumbers] [] := by decide
  rw [decide_eq_true passes] at given
  exact ⟨standard, derives_candidate, through, out, given⟩

/-- A candidate that is numbered behind a point. -/
def numberedCandidate : Version := ⟨1, 0, 0, ["rc", "1"], []⟩

/-- Such a version is refused where its own text is the pattern. -/
theorem numberedCandidate_not_available :
    numberedCandidate.toText = "1.0.0-rc.1" ∧ parse "1.0.0-rc.1" = .ok numberedCandidate ∧
    Derives "1.0.0-rc.1" numberedCandidate ∧
    numberedCandidate.isAvailable ["1.0.0-rc.1"] [] = .error (.badPattern "1.0.0-rc.1") := by
  have read : parse "1.0.0-rc.1" = .ok numberedCandidate := by rfl
  have derived := derives_of_bare read (by decide +kernel) (by decide +kernel)
  exact ⟨by decide +kernel, read, derived, by rfl⟩

end Sample

end ModulePackaging
