import ModulePackaging.Proofs.Digits
import ModulePackaging.Proofs.Pieces
import ModulePackaging.Version.Basic

/-!
# Version round trip

A version that was read from a text is read back from the text it is shown as. The signs that hold
the parts of a version together are in none of the parts, whatever script the digits of its
identifiers are from.
-/

namespace ModulePackaging

namespace Version

/-- What the parts of a version are made of: digits of any script, ASCII letters and hyphens. -/
def IsPart (c : CodePoint) : Prop := c.isDecimal = true ∨ isIdentifierPoint c = true

theorem isPart_ne {c d : CodePoint} (h : IsPart c)
    (out : (CodePoint.zeros.all fun z => d.val < z || z + 9 < d.val) = true)
    (other : isIdentifierPoint d = false) : c ≠ d := by
  rcases h with h | h
  · exact CodePoint.ne_of_isDecimal h out
  · rintro rfl
    rw [h] at other
    exact absurd other (by decide)

/-- Letters, digits and the hyphen stand between the space and the end of ASCII. -/
theorem range_of_isIdentifierPoint {c : CodePoint} (h : isIdentifierPoint c = true) :
    0x20 < c.val ∧ c.val < 0x80 := by
  simp only [isIdentifierPoint, isLetter, CodePoint.isAsciiLetter, CodePoint.isAsciiUpper,
    CodePoint.isAsciiLower, CodePoint.isAsciiDigit, Bool.or_eq_true, Bool.and_eq_true,
    decide_eq_true_eq] at h
  rcases h with ((h | h) | h) | h
  · omega
  · omega
  · subst h
    decide
  · omega

theorem isBlank_of_isPart {c : CodePoint} (h : IsPart c) : c.isBlank = false := by
  rcases h with h | h
  · exact CodePoint.isBlank_of_isDecimal h
  · obtain ⟨low, high⟩ := range_of_isIdentifierPoint h
    exact CodePoint.isBlank_of_printing low high

/-- A number is made of digits. -/
theorem isDecimal_of_isNumber {t : Text} (h : isNumber t = true) : ∀ c ∈ t, c.isDecimal = true := by
  cases t with
  | nil => exact List.forall_mem_nil _
  | cons c rest =>
      rw [isNumber] at h
      split at h
      · rename_i zero
        rw [List.isEmpty_iff] at h
        subst h zero
        intro d member
        rw [List.mem_singleton.mp member]
        decide
      · rw [Bool.and_eq_true, List.all_eq_true] at h
        intro d member
        rcases List.mem_cons.mp member with rfl | member
        · exact CodePoint.isDecimal_of_isAsciiDigit h.1
        · exact h.2 d member

theorem isPart_of_isNumber {t : Text} (h : isNumber t = true) : ∀ c ∈ t, IsPart c :=
  fun c member => Or.inl (isDecimal_of_isNumber h c member)

theorem isPart_of_isWord {t : Text} (h : isWord t = true) : ∀ c ∈ t, IsPart c := by
  rw [← List.takeWhile_append_dropWhile (p := CodePoint.isDecimal) (l := t)]
  unfold isWord at h
  split at h
  · exact absurd h (by decide)
  · rename_i c rest behind
    rw [Bool.and_eq_true, List.all_eq_true] at h
    intro d member
    rw [List.mem_append, behind] at member
    rcases member with front | member
    · exact Or.inl (List.mem_takeWhile_imp front)
    · rcases List.mem_cons.mp member with rfl | member
      · exact Or.inr (by rw [isIdentifierPoint, h.1, Bool.true_or])
      · exact Or.inr (h.2 d member)

theorem isPart_of_isPrereleaseIdentifier {t : Text} (h : isPrereleaseIdentifier t = true) :
    ∀ c ∈ t, IsPart c := by
  rcases Bool.or_eq_true_iff.mp h with h | h
  · exact isPart_of_isNumber h
  · exact isPart_of_isWord h

theorem isPart_of_isBuildIdentifier {t : Text} (h : isBuildIdentifier t = true) :
    ∀ c ∈ t, IsPart c := by
  rw [isBuildIdentifier, Bool.and_eq_true, List.all_eq_true] at h
  exact fun c member => Or.inr (h.2 c member)

theorem isNumber_ofNat (n : Nat) : isNumber (Text.ofNat n) = true := by
  rcases Nat.eq_zero_or_pos n with rfl | positive
  · decide
  · obtain ⟨d, rest, low, high, form⟩ := Text.head_ofNat positive
    have digits := Text.isAsciiDigit_of_mem_ofNat n
    rw [form] at digits ⊢
    have first : Text.digit d ≠ CodePoint.ofChar '0' := by
      intro zero
      have := congrArg Fin.val zero
      rw [Text.val_digit high] at this
      have value : (CodePoint.ofChar '0').val = 0x30 := by decide
      omega
    rw [isNumber, if_neg first, Bool.and_eq_true, List.all_eq_true]
    exact ⟨digits _ List.mem_cons_self, fun c member =>
      CodePoint.isDecimal_of_isAsciiDigit (digits c (List.mem_cons_of_mem _ member))⟩

/-! ## What a version that was read is like -/

/-- Numbers that can be written, and identifiers that pass. -/
structure IsReadable (v : Version) : Prop where
  major : Decimal.isLong v.major = false
  minor : Decimal.isLong v.minor = false
  patch : Decimal.isLong v.patch = false
  prerelease : ∀ t ∈ v.prerelease, isPrereleaseIdentifier t = true
  build : ∀ t ∈ v.build, isBuildIdentifier t = true

theorem mem_of_mapM {α β : Type} {f : α → Option β} {l : List α} {values : List β}
    (h : l.mapM f = some values) : ∀ b ∈ values, ∃ a ∈ l, f a = some b := by
  induction l generalizing values with
  | nil =>
      rw [List.mapM_nil] at h
      injection h with h
      subst h
      exact List.forall_mem_nil _
  | cons a rest ih =>
      rw [List.mapM_cons] at h
      obtain ⟨b, first, h⟩ := Option.bind_eq_some_iff.mp h
      obtain ⟨others, h', h⟩ := Option.bind_eq_some_iff.mp h
      injection h with h
      subst h
      intro e member
      rcases List.mem_cons.mp member with rfl | member
      · exact ⟨a, List.mem_cons_self, first⟩
      · obtain ⟨x, inside, value⟩ := ih h' e member
        exact ⟨x, List.mem_cons_of_mem _ inside, value⟩

/-- A number that was read can be written. -/
theorem isLong_of_number {t : Text} {n : Nat} (h : number t = .ok n) :
    Decimal.isLong n = false := by
  rw [number, mapError_eq_ok] at h
  unfold Decimal.natural at h
  split at h
  · exact absurd h (by simp)
  · exact absurd h (by simp)
  · rename_i digits _ values
    split at h
    · exact absurd h (by simp)
    · rename_i few
      injection h with h
      subst h
      refine Decimal.isLong_ofDigits (fun d member => ?_) (by omega)
      obtain ⟨c, _, value⟩ := mem_of_mapM values d member
      exact CodePoint.decimalValue?_lt value

theorem identifiers?_all {passes : Text → Bool} {part : Option Text} {found : List Text}
    (h : identifiers? passes part = some found) : ∀ t ∈ found, passes t = true := by
  cases part with
  | none =>
      rw [identifiers?] at h
      injection h with h
      subst h
      exact List.forall_mem_nil _
  | some t =>
      simp only [identifiers?] at h
      split at h
      · rename_i all
        injection h with h
        subst h
        exact List.all_eq_true.mp all
      · exact absurd h (by simp)

theorem cut_of_none {sep : CodePoint} {t : Text} (none : ∀ c ∈ t, c ≠ sep) :
    cut sep t = (t, .none) := by
  have all : t.takeWhile (· != sep) = t :=
    List.takeWhile_eq_self_iff.mpr fun c member => by simpa using none c member
  unfold cut
  simp only [all, List.drop_length]

theorem cut_append {sep : CodePoint} {t : Text} (none : ∀ c ∈ t, c ≠ sep) (rest : Text) :
    cut sep (t ++ sep :: rest) = (t, some rest) := by
  have front : (t ++ sep :: rest).takeWhile (· != sep) = t := by
    rw [List.takeWhile_append_of_pos fun c member => by simpa using none c member]
    rw [List.takeWhile_cons_of_neg (by simp), List.append_nil]
  unfold cut
  simp only [front, List.drop_left]

/-- A text that is cut is what stands in front of the sign, then the sign and the rest if it is
there. -/
theorem eq_of_cut {sep : CodePoint} {t before : Text} {after : Option Text}
    (h : cut sep t = (before, after)) : t = before ++ after.elim [] (sep :: ·) := by
  by_cases inside : sep ∈ t
  · obtain ⟨front, rest, rfl, none⟩ := List.eq_append_cons_of_mem inside
    rw [cut_append fun c member => ne_of_mem_of_not_mem member none] at h
    obtain ⟨rfl, rfl⟩ := Prod.mk.inj h
    rfl
  · rw [cut_of_none fun c member => ne_of_mem_of_not_mem member inside] at h
    obtain ⟨rfl, rfl⟩ := Prod.mk.inj h
    exact (List.append_nil t).symm

/-- A text is these parts: three numbers with points between them, then the identifiers. -/
structure IsMadeOf (t major minor patch : Text) (prerelease build : List Text) : Prop where
  text : ∃ behind last : Option Text,
    t = Text.joined [0x2E] [major, minor, patch] ++ behind.elim [] (0x2D :: ·) ++
        last.elim [] (0x2B :: ·) ∧
      identifiers? isPrereleaseIdentifier behind = some prerelease ∧
      identifiers? isBuildIdentifier last = some build
  numbers : ∀ piece ∈ [major, minor, patch], isNumber piece = true

theorem isMadeOf_of_parts? {t major minor patch : Text} {prerelease build : List Text}
    (h : parts? t = some (major, minor, patch, prerelease, build)) :
    IsMadeOf t major minor patch prerelease build := by
  unfold parts? at h
  cases outer : cut (CodePoint.ofChar '+') t with
  | mk front last =>
  cases inner : cut (CodePoint.ofChar '-') front with
  | mk core behind =>
  simp only [outer, inner] at h
  split at h
  · rename_i pieces prereleases builds
    split at h
    · rename_i numbers
      simp only [Option.some.injEq, Prod.mk.injEq] at h
      obtain ⟨rfl, rfl, rfl, rfl, rfl⟩ := h
      simp only [Bool.and_eq_true] at numbers
      obtain ⟨⟨one, two⟩, three⟩ := numbers
      refine ⟨⟨behind, last, ?_, prereleases, builds⟩, by simp [one, two, three]⟩
      rw [eq_of_cut outer, eq_of_cut inner, ← pieces]
      exact congrArg (· ++ _ ++ _) (Text.joined_splitOn _ core).symm
    · exact absurd h (by simp)
  · exact absurd h (by simp)

/-- A version that was read is readable. -/
theorem isReadable_of_parse {t : Text} {v : Version} (h : parse t = .ok v) : v.IsReadable := by
  unfold parse at h
  split at h
  · exact absurd h (by simp)
  · rename_i major minor patch prerelease build found
    obtain ⟨m, hm, h⟩ := bind_eq_ok.mp h
    obtain ⟨n, hn, h⟩ := bind_eq_ok.mp h
    obtain ⟨p, hp, h⟩ := bind_eq_ok.mp h
    have made := Except.ok.inj h
    subst made
    obtain ⟨_, _, _, prereleases, builds⟩ := (isMadeOf_of_parts? found).text
    exact ⟨isLong_of_number hm, isLong_of_number hn, isLong_of_number hp,
      identifiers?_all prereleases, identifiers?_all builds⟩

/-- A code point of a version: a point, the sign of the build, or one of its parts. -/
def IsVersionPoint (c : CodePoint) : Prop := c = 0x2E ∨ c = 0x2B ∨ IsPart c

theorem isVersionPoint_of_identifiers? {passes : Text → Bool} {part : Option Text}
    {found : List Text} (h : identifiers? passes part = some found)
    (whole : ∀ t, passes t = true → ∀ c ∈ t, IsPart c) {sign c : CodePoint}
    (known : IsVersionPoint sign) (member : c ∈ part.elim [] (sign :: ·)) : IsVersionPoint c := by
  cases part with
  | none => exact absurd member List.not_mem_nil
  | some t =>
      rcases List.mem_cons.mp member with rfl | inside
      · exact known
      · have all := identifiers?_all h
        simp only [identifiers?] at h
        split at h
        · obtain rfl := Option.some.inj h
          rw [← Text.joined_splitOn (CodePoint.ofChar '.') t] at inside
          rcases Text.mem_joined inside with sep | ⟨piece, here, inside⟩
          · exact .inl (List.mem_singleton.mp sep)
          · exact .inr (.inr (whole piece (all piece here) c inside))
        · exact absurd h (by simp)

namespace IsMadeOf

variable {t major minor patch : Text} {prerelease build : List Text}

theorem isVersionPoint (h : IsMadeOf t major minor patch prerelease build) :
    ∀ c ∈ t, IsVersionPoint c := by
  obtain ⟨behind, last, rfl, prereleases, builds⟩ := h.text
  intro c member
  rw [List.mem_append, List.mem_append] at member
  rcases member with (core | behind) | last
  · rcases Text.mem_joined core with sep | ⟨piece, here, inside⟩
    · exact .inl (List.mem_singleton.mp sep)
    · exact .inr (.inr (isPart_of_isNumber (h.numbers piece here) c inside))
  · exact isVersionPoint_of_identifiers? prereleases
      (fun _ passes => isPart_of_isPrereleaseIdentifier passes) (.inr (.inr (.inr (by decide))))
      behind
  · exact isVersionPoint_of_identifiers? builds
      (fun _ passes => isPart_of_isBuildIdentifier passes) (.inr (.inl rfl)) last

end IsMadeOf

/-- A text with a version in it has digits, and blanks maybe, in front of its first point, and no
more in it than blanks and what versions are written with. -/
theorem form_of_parse {t : Text} {v : Version} (h : parse t = .ok v) :
    (∃ front rest, t = front ++ 0x2E :: rest ∧
      ∀ c ∈ front, c.isBlank = true ∨ c.isDecimal = true) ∧
      ∀ c ∈ t, c.isBlank = true ∨ IsVersionPoint c := by
  unfold parse at h
  split at h
  · exact absurd h (by simp)
  · rename_i major minor patch prerelease build found
    have parts := isMadeOf_of_parts? found
    obtain ⟨left, right, form, blank, blankAlso⟩ := Text.exists_trimmed t
    obtain ⟨behind, last, trimmed, _, _⟩ := parts.text
    constructor
    · refine ⟨left ++ major, Text.joined [0x2E] [minor, patch] ++ behind.elim [] (0x2D :: ·) ++
        last.elim [] (0x2B :: ·) ++ right, ?_, ?_⟩
      · rw [form, trimmed]
        simp [Text.joined]
      · intro c member
        rcases List.mem_append.mp member with outside | inside
        · exact .inl (blank c outside)
        · exact .inr (isDecimal_of_isNumber (parts.numbers major List.mem_cons_self) c inside)
    · intro c member
      rw [form, List.mem_append, List.mem_append] at member
      rcases member with (outside | inside) | outside
      · exact .inl (blank c outside)
      · exact .inr (parts.isVersionPoint c inside)
      · exact .inl (blankAlso c outside)

/-! ## Reading what is shown -/

/-- Cutting in front of a part gives the part back. -/
theorem cut_part {sep : CodePoint} {t : Text} (none : ∀ c ∈ t, c ≠ sep) (found : List Text) :
    cut sep (t ++ part [sep] found) =
      (t, if found.isEmpty then .none else some (Text.joined "." found)) := by
  unfold part
  split
  · rw [List.append_nil, cut_of_none none]
  · rw [List.singleton_append, cut_append none]

/-- The identifiers of a part are found again. -/
theorem identifiers?_joined {passes : Text → Bool} {found : List Text}
    (all : ∀ t ∈ found, passes t = true) (whole : ∀ t ∈ found, ∀ c ∈ t, IsPart c) :
    identifiers? passes (if found.isEmpty then .none else some (Text.joined "." found)) =
      some found := by
  cases found with
  | nil => rfl
  | cons t rest =>
      have split : Text.splitOn (CodePoint.ofChar '.') (Text.joined "." (t :: rest)) = t :: rest :=
        Text.splitOn_joined 0x2E (t :: rest) (List.cons_ne_nil _ _) fun piece member c inside =>
          isPart_ne (whole piece member c inside) (by decide) (by decide)
      simp only [List.isEmpty_cons, Bool.false_eq_true, if_false, identifiers?]
      rw [split, if_pos (List.all_eq_true.mpr all)]

theorem number_ofNat {n : Nat} (short : Decimal.isLong n = false) :
    number (Text.ofNat n) = .ok n := by
  rw [number, Decimal.natural_ofNat short]
  rfl

/-- The core of a version in pieces. -/
theorem coreText_eq (v : Version) : v.coreText =
    Text.joined [0x2E] [Text.ofNat v.major, Text.ofNat v.minor, Text.ofNat v.patch] := by
  show Text.ofNat v.major ++ [0x2E] ++ Text.ofNat v.minor ++ [0x2E] ++ Text.ofNat v.patch = _
  simp [Text.joined]

/-- A part of a version holds its sign, points and what identifiers are made of. -/
theorem mem_part {sign c : CodePoint} {found : List Text}
    (whole : ∀ t ∈ found, ∀ c ∈ t, IsPart c) (h : c ∈ part [sign] found) :
    c = sign ∨ c = 0x2E ∨ IsPart c := by
  unfold part at h
  split at h
  · exact absurd h List.not_mem_nil
  · rcases List.mem_append.mp h with h | h
    · exact Or.inl (List.mem_singleton.mp h)
    · rcases Text.mem_joined h with h | ⟨t, member, inside⟩
      · exact Or.inr (Or.inl (List.mem_singleton.mp h))
      · exact Or.inr (Or.inr (whole t member c inside))

/-- Parts that pass are found again in the text that is put together from them. -/
theorem parts?_joined {major minor patch : Text} {prerelease build : List Text}
    (numbers : ∀ piece ∈ [major, minor, patch], isNumber piece = true)
    (prereleases : ∀ t ∈ prerelease, isPrereleaseIdentifier t = true)
    (builds : ∀ t ∈ build, isBuildIdentifier t = true) :
    parts? (Text.joined [0x2E] [major, minor, patch] ++ part [0x2D] prerelease ++
        part [0x2B] build) = some (major, minor, patch, prerelease, build) := by
  have identifiers : ∀ t ∈ prerelease, ∀ c ∈ t, IsPart c := fun t member =>
    isPart_of_isPrereleaseIdentifier (prereleases t member)
  have pieces : Text.splitOn (CodePoint.ofChar '.') (Text.joined [0x2E] [major, minor, patch]) =
      [major, minor, patch] :=
    Text.splitOn_joined 0x2E _ (List.cons_ne_nil _ _) fun piece inside c member =>
      CodePoint.ne_of_isDecimal (isDecimal_of_isNumber (numbers piece inside) c member) (by decide)
  have core : ∀ c ∈ Text.joined [0x2E] [major, minor, patch], c = 0x2E ∨ c.isDecimal = true := by
    intro c member
    rcases Text.mem_joined member with member | ⟨piece, inside, member⟩
    · exact .inl (List.mem_singleton.mp member)
    · exact .inr (isDecimal_of_isNumber (numbers piece inside) c member)
  -- A text is cut at the first plus and then at the first hyphen: neither stands further in front.
  have coreHyphen : ∀ c ∈ Text.joined [0x2E] [major, minor, patch], c ≠ 0x2D := by
    intro c member
    rcases core c member with rfl | digit
    · decide
    · exact CodePoint.ne_of_isDecimal digit (by decide)
  have frontPlus : ∀ c ∈ Text.joined [0x2E] [major, minor, patch] ++ part [0x2D] prerelease,
      c ≠ 0x2B := by
    intro c member
    rcases List.mem_append.mp member with member | member
    · rcases core c member with rfl | digit
      · decide
      · exact CodePoint.ne_of_isDecimal digit (by decide)
    · rcases mem_part identifiers member with rfl | rfl | inside
      · decide
      · decide
      · exact isPart_ne inside (by decide) (by decide)
  simp only [List.forall_mem_cons] at numbers
  unfold parts?
  rw [show CodePoint.ofChar '+' = 0x2B from rfl, cut_part frontPlus,
    show CodePoint.ofChar '-' = 0x2D from rfl]
  simp only [cut_part coreHyphen, pieces, identifiers?_joined prereleases identifiers,
    identifiers?_joined builds fun t member => isPart_of_isBuildIdentifier (builds t member),
    numbers.1, numbers.2.1, numbers.2.2.1, Bool.and_self, if_true]

theorem isBlank_of_isVersionPoint {c : CodePoint} (h : IsVersionPoint c) : c.isBlank = false := by
  rcases h with rfl | rfl | inside
  · decide
  · decide
  · exact isBlank_of_isPart inside

/-- The text of a readable version is read as that version. -/
theorem parse_toText {v : Version} (h : v.IsReadable) : parse v.toText = .ok v := by
  have shown : v.toText = v.coreText ++ part [0x2D] v.prerelease ++ part [0x2B] v.build := rfl
  have found : parts? v.toText = some (Text.ofNat v.major, Text.ofNat v.minor,
      Text.ofNat v.patch, v.prerelease, v.build) := by
    rw [shown, coreText_eq]
    exact parts?_joined (by simp [isNumber_ofNat]) h.prerelease h.build
  have trimmed : v.toText.trimmed = v.toText :=
    Text.trimmed_of_none fun c member =>
      isBlank_of_isVersionPoint ((isMadeOf_of_parts? found).isVersionPoint c member)
  unfold parse
  rw [trimmed, found]
  simp only [number_ofNat h.major, number_ofNat h.minor, number_ofNat h.patch, bind, Except.bind]
  rfl

end Version

end ModulePackaging
