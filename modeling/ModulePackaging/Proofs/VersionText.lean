import ModulePackaging.Proofs.VersionGrammar

/-!
# Versions and their texts

A version is written in one way. Reading what is written gives the version back, whatever blanks or
digits of other scripts it was first read from; and a text of the grammar is written again sign by
sign, since a number without zeros in front has one numeral and the identifiers are kept as they
are. The one thing in the way is a number of the core that has more digits than can be read.

Main statement (`text_round_trip`).
-/

namespace ModulePackaging

namespace Version

open Grammar

variable {t : Text} {v : Version}

/-- A text of the grammar is what its version is written as. -/
theorem Derives.toText_eq (h : Derives t v) : v.toText = t := by
  obtain ⟨major, minor, patch, rfl, numbers, _, _, values⟩ := derives_iff.mp h
  have written : ∀ piece ∈ [major, minor, patch], (Text.ofNat ∘ Text.numeral) piece = piece := by
    intro piece member
    obtain ⟨number, plain⟩ := numericIdentifier_iff.mp (numbers piece member)
    apply Text.ofNat_numeral number
    intro c inside
    exact plain c inside (isDecimal_of_isNumber number c inside)
  have core : [Text.ofNat v.major, Text.ofNat v.minor, Text.ofNat v.patch] =
      [major, minor, patch] := by
    show v.core.map Text.ofNat = _
    rw [values, List.map_map, List.map_congr_left written, List.map_id']
  show v.coreText ++ part [0x2D] v.prerelease ++ part [0x2B] v.build = _
  rw [coreText_eq, core]

/-- No text of the grammar has blanks in it. -/
theorem Derives.trimmed_eq (h : Derives t v) : t.trimmed = t := by
  obtain ⟨_, major, minor, patch, found, _⟩ := derives_iff_parts.mp h
  apply Text.trimmed_of_none
  intro c member
  exact isBlank_of_isVersionPoint ((isMadeOf_of_parts? found).isVersionPoint c member)

/-- A text without blanks around it is derived as what is read from it, if its digits are ASCII. -/
theorem derives_of_bare (read : parse t = .ok v) (bare : t.trimmed = t) (plain : HasAsciiDigits t) :
    Derives t v := by
  have derived := derives_of_parse read (bare.symm ▸ plain)
  rwa [bare] at derived

/-- The identifiers of a text of the grammar are of the standard form. -/
theorem Derives.isStandard (h : Derives t v) : v.IsStandard := by
  obtain ⟨_, _, _, _, _, prereleases, _, _⟩ := derives_iff.mp h
  intro i member
  obtain ⟨passes, plain⟩ := prereleaseIdentifier_iff.mp (prereleases i member)
  refine ⟨passes, fun digits c inside => plain c inside ?_⟩
  exact isDecimal_of_isNumber (isNumber_of_isDigits passes digits) c inside

instance (v : Version) : Decidable v.HasShortCore :=
  inferInstanceAs (Decidable (∀ n ∈ v.core, Decimal.isLong n = false))

/-- A version that is read is read with all its fields from what it is written as. A text of the
grammar is what its version is written as; it is read and written again, unless a number of its core
is too long to be read. -/
theorem text_round_trip (t : Text) :
    (∀ v, parse t = .ok v → parse v.toText = .ok v) ∧
    ∀ v, Derives t v → v.toText = t ∧
      (v.HasShortCore → (parse t).map toText = .ok t) ∧
      (¬ v.HasShortCore → ∃ n, parse t = .error (.number (.tooLong n))) := by
  constructor
  · intro v read
    exact parse_toText (isReadable_of_parse read)
  · intro v derived
    have shown := derived.toText_eq
    -- what is read is the trimmed text, which is the text itself here
    rw [← derived.trimmed_eq] at derived
    obtain ⟨short, long⟩ := parse_of_derives derived
    refine ⟨shown, fun few => ?_, long⟩
    rw [short few]
    show Except.ok v.toText = _
    rw [shown]

end Version

namespace Sample

open Version Version.Grammar

set_option maxRecDepth 100000 in
/-- A version with blanks around it and a wide digit in its core is written without them, and read
again; one of the grammar is written as it was. -/
theorem text_round_trip_of_two :
    parse wideText = .ok ⟨11, 0, 0, [], []⟩ ∧ parse "11.0.0" = .ok ⟨11, 0, 0, [], []⟩ ∧
    Derives "1.20.3-rc.1-x.0+007.a" ⟨1, 20, 3, ["rc", "1-x", "0"], ["007", "a"]⟩ ∧
    (parse "1.20.3-rc.1-x.0+007.a").map toText = .ok "1.20.3-rc.1-x.0+007.a" := by
  have wide : parse wideText = .ok ⟨11, 0, 0, [], []⟩ := by rfl
  have shown : toText ⟨11, 0, 0, [], []⟩ = "11.0.0" := by decide +kernel
  have again := (text_round_trip wideText).1 _ wide
  rw [shown] at again
  have read : parse "1.20.3-rc.1-x.0+007.a" =
      .ok ⟨1, 20, 3, ["rc", "1-x", "0"], ["007", "a"]⟩ := by rfl
  have derived := derives_of_bare read (by decide +kernel) (by decide +kernel)
  have short : HasShortCore ⟨1, 20, 3, ["rc", "1-x", "0"], ["007", "a"]⟩ := by decide
  obtain ⟨_, written, _⟩ := (text_round_trip "1.20.3-rc.1-x.0+007.a").2 _ derived
  exact ⟨wide, again, derived, written short⟩

/-- A release with a number that is too long to be read. -/
def longRelease : Text := longNumber ++ 0x2E :: [0x30] ++ 0x2E :: [0x30]

/-- The text can be derived, and is not read. -/
theorem longRelease_not_kept :
    Derives longRelease ⟨longNumber.numeral, 0, 0, [], []⟩ ∧
    (parse longRelease).map toText ≠ .ok longRelease := by
  have number : NumericIdentifier longNumber := numericIdentifier_iff.mpr
    ⟨isStandardIdentifier_longNumber.isNumber isDigits_longNumber, fun c member _ =>
      isStandardIdentifier_longNumber.digits isDigits_longNumber c member⟩
  have zero : Text.numeral [0x30] = 0 := by decide
  have core := Core.numbers number .zero .zero
  rw [zero] at core
  have derived : Derives longRelease ⟨longNumber.numeral, 0, 0, [], []⟩ := .release core
  refine ⟨derived, ?_⟩
  have long : Decimal.isLong longNumber.numeral = true := by
    rw [Decimal.isLong, Int.natAbs_natCast,
      isStandardIdentifier_longNumber.ofNat_numeral isDigits_longNumber, longNumber,
      List.length_replicate]
    exact decide_eq_true (Nat.lt_succ_self _)
  have unread : ∀ {n : Nat}, Decimal.isLong n = true → ¬ HasShortCore ⟨n, 0, 0, [], []⟩ := by
    intro n long short
    have few := short n List.mem_cons_self
    rw [long] at few
    exact absurd few (by simp)
  rw [← derived.trimmed_eq] at derived
  obtain ⟨n, refused⟩ := (parse_of_derives derived).2 (unread long)
  rw [refused]
  simp [Except.map]

end Sample

end ModulePackaging
