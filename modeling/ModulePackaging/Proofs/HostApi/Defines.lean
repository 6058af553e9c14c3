import ModulePackaging.HostApi.Defines
import ModulePackaging.Proofs.HostApi.Changes

/-!
# What defines tell

The defines of an entry are printing ASCII, so a list of them with spaces in between can be taken
apart again. They tell the numbers of the version and, each by itself, the flags: the small letters
become capitals and can be told back. What cannot be told is whether a flag ends in `_` or in a line
end, and the check lets both through.

Main statement (`defines_identify_entry`).
-/

namespace ModulePackaging

/-! ## Defines of flags -/

/-- The define of a flag. -/
def featureDefine (flag : Text) : Text := "SIMPACK_FEATURE_" ++ defineToken flag

/-- Whether a define is that of a flag. -/
def isFeatureDefine (define : Text) : Bool := define.startsWith "SIMPACK_FEATURE_"

/-- A flag as its define tells it: a line end counts as `_`. -/
def plainFlag (flag : Text) : Text := flag.replacing 0x0A 0x5F

namespace CodePoint

/-- The small letter of an ASCII capital; all else stays. -/
def asciiLower (c : CodePoint) : CodePoint := if c.isAsciiUpper then ofNat (c.val + 0x20) else c

/-- What flags are made of: small letters, digits, `_` and line ends. -/
def isFlagPoint (c : CodePoint) : Bool :=
  c.isAsciiLower || c.isAsciiDigit || c = 0x5F || c = 0x0A

/-- A small letter is told back from its capital. -/
theorem asciiLower_asciiUpper {c : CodePoint} (h : c.isAsciiUpper = false) :
    c.asciiUpper.asciiLower = c := by
  unfold asciiUpper
  split
  · rename_i lower
    simp only [isAsciiLower, Bool.and_eq_true, decide_eq_true_eq] at lower
    have capital : (ofNat (c.val - 0x20)).val = c.val - 0x20 := val_ofNat (by omega)
    have upper : (ofNat (c.val - 0x20)).isAsciiUpper = true := by
      simp only [isAsciiUpper, capital, Bool.and_eq_true, decide_eq_true_eq]
      omega
    rw [asciiLower, if_pos upper, capital]
    apply Fin.ext
    rw [val_ofNat (by omega)]
    omega
  · rw [asciiLower, if_neg (by simp [h])]

end CodePoint

/-- A flag is made of such code points. -/
theorem isFlagPoint_of_isFlag {flag : Text} (h : isFlag flag = true) :
    ∀ c ∈ flag, c.isFlagPoint = true := by
  -- only a line end at the end is not looked at
  have looked : ∀ c ∈ flag,
      c ∈ (if flag.getLast? == some 0x0A then flag.dropLast else flag) ∨ c = 0x0A := by
    intro c member
    split
    · rename_i last
      have form : flag.dropLast ++ [0x0A] = flag :=
        List.dropLast_append_getLast? _ (beq_iff_eq.mp last)
      rw [← form, List.mem_append, List.mem_singleton] at member
      exact member
    · exact .inl member
  unfold isFlag at h
  generalize (if flag.getLast? == some 0x0A then flag.dropLast else flag) = name at h looked
  cases name with
  | nil => exact absurd h (by simp)
  | cons first rest =>
      obtain ⟨small, others⟩ := Bool.and_eq_true_iff.mp h
      intro c member
      rcases looked c member with inside | lineEnd
      · rcases List.mem_cons.mp inside with rfl | inside
        · simp [CodePoint.isFlagPoint, small]
        · have point := List.all_eq_true.mp others c inside
          exact Bool.or_eq_true_iff.mpr (.inl point)
      · simp [CodePoint.isFlagPoint, lineEnd]

/-- A part of a define tells the code point of a flag that it stands for. -/
theorem asciiLower_of_isFlagPoint {c : CodePoint} (h : c.isFlagPoint = true) :
    CodePoint.asciiLower (if c.isAsciiLetter || c.isAsciiDigit then c.asciiUpper else 0x5F) =
      if c = 0x0A then 0x5F else c := by
  have kept {c : CodePoint} (shown : c.isAsciiLower = true ∨ c.isAsciiDigit = true) :
      c.isAsciiUpper = false ∧ c ≠ 0x0A := by
    simp only [CodePoint.isAsciiLower, CodePoint.isAsciiDigit, Bool.and_eq_true,
      decide_eq_true_eq] at shown
    refine ⟨?_, by rintro rfl; simp at shown⟩
    simp only [CodePoint.isAsciiUpper, Bool.and_eq_false_iff, decide_eq_false_iff_not]
    omega
  simp only [CodePoint.isFlagPoint, Bool.or_eq_true, decide_eq_true_eq] at h
  rcases h with (shown | rfl) | rfl
  · obtain ⟨small, other⟩ := kept shown
    have inside : (c.isAsciiLetter || c.isAsciiDigit) = true := by
      rcases shown with lower | digit
      · simp [CodePoint.isAsciiLetter, lower]
      · simp [digit]
    rw [if_pos inside, if_neg other, CodePoint.asciiLower_asciiUpper small]
  · decide
  · decide

/-- A define tells the flag that it is of, up to a line end. -/
theorem plainFlag_of_defineToken {flag : Text} (h : isFlag flag = true) :
    (defineToken flag).map CodePoint.asciiLower = plainFlag flag := by
  unfold defineToken plainFlag Text.replacing
  rw [List.map_map]
  apply List.map_congr_left
  intro c member
  exact asciiLower_of_isFlagPoint (isFlagPoint_of_isFlag h c member)

/-- A line end and `_` have one define. -/
theorem defineToken_plainFlag (flag : Text) : defineToken (plainFlag flag) = defineToken flag := by
  unfold defineToken plainFlag Text.replacing
  rw [List.map_map]
  apply List.map_congr_left
  intro c _
  by_cases lineEnd : c = 0x0A
  · rw [lineEnd]
    decide
  · rw [Function.comp_apply, if_neg lineEnd]

variable {a b e : ApiEntry} {flags others : List Text}

/-- Flags have the same defines, in order, exactly if they are the same but for line ends. -/
theorem map_featureDefine_eq_iff (formed : ∀ f ∈ flags, isFlag f = true)
    (also : ∀ f ∈ others, isFlag f = true) :
    flags.map featureDefine = others.map featureDefine ↔
      flags.map plainFlag = others.map plainFlag := by
  -- a flag stands behind the first sixteen signs of its define, in capitals
  have told (flags : List Text) (formed : ∀ f ∈ flags, isFlag f = true) :
      flags.map plainFlag = (flags.map featureDefine).map
        fun define => (define.drop 16).map CodePoint.asciiLower := by
    rw [List.map_map]
    apply List.map_congr_left
    intro f member
    exact (plainFlag_of_defineToken (formed f member)).symm
  have given (flags : List Text) :
      flags.map featureDefine = (flags.map plainFlag).map featureDefine := by
    rw [List.map_map]
    apply List.map_congr_left
    intro f _
    rw [Function.comp_apply, featureDefine, featureDefine, defineToken_plainFlag]
  constructor
  · intro same
    rw [told flags formed, told others also, same]
  · intro same
    rw [given flags, given others, same]

/-- Two flags have one define exactly if they are the same but for a line end. -/
theorem featureDefine_eq_iff {f g : Text} (formed : isFlag f = true) (also : isFlag g = true) :
    featureDefine f = featureDefine g ↔ plainFlag f = plainFlag g := by
  have single := @map_featureDefine_eq_iff [f] [g] (by simpa using formed) (by simpa using also)
  simpa using single

/-- A flag without line ends is told as it is. -/
theorem plainFlag_of_none {flag : Text} (none : 0x0A ∉ flag) : plainFlag flag = flag := by
  unfold plainFlag Text.replacing
  conv_rhs => rw [← List.map_id flag]
  apply List.map_congr_left
  intro c member
  exact if_neg (ne_of_mem_of_not_mem member none)

/-! ## Defines of entries -/

/-- A text that is made of printing ASCII. -/
def IsPrinting (t : Text) : Prop := ∀ c ∈ t, 0x20 < c.val ∧ c.val < 0x80

instance (t : Text) : Decidable (IsPrinting t) := List.decidableBAll _ t

theorem IsPrinting.append {t u : Text} (h : IsPrinting t) (k : IsPrinting u) :
    IsPrinting (t ++ u) := List.forall_mem_append.mpr ⟨h, k⟩

theorem isPrinting_ofNat (n : Nat) : IsPrinting (Text.ofNat n) := by
  intro c member
  have digit := Text.isAsciiDigit_of_mem_ofNat n c member
  simp only [CodePoint.isAsciiDigit, Bool.and_eq_true, decide_eq_true_eq] at digit
  omega

theorem isPrinting_coreText (v : Version) : IsPrinting v.coreText := by
  unfold Version.coreText
  have point : IsPrinting "." := by decide
  exact ((((isPrinting_ofNat _).append point).append (isPrinting_ofNat _)).append point).append
    (isPrinting_ofNat _)

theorem isPrinting_defineToken (t : Text) : IsPrinting (defineToken t) := by
  intro c member
  obtain ⟨d, _, rfl⟩ := List.mem_map.mp member
  split
  · rename_i shown
    unfold CodePoint.asciiUpper
    split
    · rename_i lower
      simp only [CodePoint.isAsciiLower, Bool.and_eq_true, decide_eq_true_eq] at lower
      rw [CodePoint.val_ofNat (by omega)]
      omega
    · simp only [CodePoint.isAsciiLetter, CodePoint.isAsciiUpper, CodePoint.isAsciiLower,
        CodePoint.isAsciiDigit, Bool.or_eq_true, Bool.and_eq_true, decide_eq_true_eq] at shown
      omega
  · decide

/-- Defines are made of printing ASCII, whatever the flags are. -/
theorem isPrinting_of_mem_compileDefines : ∀ define ∈ compileDefines e, IsPrinting define := by
  have low : IsPrinting "_" := by decide
  have quote : IsPrinting "\"" := by decide
  have version : IsPrinting "SIMPACK_HOST_API_" := by decide
  have major : IsPrinting "SIMPACK_HOST_API_MAJOR_" := by decide
  have core : IsPrinting "SIMPACK_HOST_API_VERSION=\"" := by decide
  have feature : IsPrinting "SIMPACK_FEATURE_" := by decide
  unfold compileDefines
  refine List.forall_mem_append.mpr ⟨List.forall_mem_cons.mpr ⟨?_, List.forall_mem_cons.mpr ⟨?_,
    List.forall_mem_singleton.mpr ?_⟩⟩, List.forall_mem_map.mpr fun flag _ => ?_⟩
  · exact version.append (((((isPrinting_ofNat _).append low).append (isPrinting_ofNat _)).append
      low).append (isPrinting_ofNat _))
  · exact major.append (isPrinting_ofNat _)
  · exact (core.append (isPrinting_coreText _)).append quote
  · exact feature.append (isPrinting_defineToken flag)

/-- The three numbers of a version are told by their text. -/
theorem coreText_eq_iff {v w : Version} : v.coreText = w.coreText ↔ v.core = w.core := by
  have told (v : Version) : v.coreText.splitOn 0x2E = v.core.map Text.ofNat := by
    rw [Version.coreText_eq]
    apply Text.splitOn_joined _ _ (List.cons_ne_nil _ _)
    intro piece member c inside
    obtain ⟨n, _, rfl⟩ : ∃ n ∈ v.core, Text.ofNat n = piece := by
      simpa [Version.core, eq_comm] using member
    have digit := CodePoint.isDecimal_of_isAsciiDigit (Text.isAsciiDigit_of_mem_ofNat n c inside)
    exact CodePoint.ne_of_isDecimal digit (by decide)
  constructor
  · intro same
    have numerals : v.core.map Text.ofNat = w.core.map Text.ofNat := by
      rw [← told v, ← told w, same]
    exact List.map_injective_iff.mpr (fun _ _ => Text.ofNat_inj) numerals
  · intro same
    simp only [Version.core, List.cons.injEq, and_true] at same
    rw [Version.coreText, Version.coreText, same.1, same.2.1, same.2.2]

theorem compileDefines_eq_iff : compileDefines a = compileDefines b ↔
    a.version.core = b.version.core ∧
      a.flags.map featureDefine = b.flags.map featureDefine := by
  constructor
  · intro same
    simp only [compileDefines, List.cons_append, List.nil_append, List.cons.injEq] at same
    obtain ⟨_, _, third, flags⟩ := same
    exact ⟨coreText_eq_iff.mp (List.append_cancel_left (List.append_cancel_right third)), flags⟩
  · rintro ⟨core, flags⟩
    have text := coreText_eq_iff.mpr core
    simp only [Version.core, List.cons.injEq, and_true] at core
    have behind : (a.flags.map fun flag => ("SIMPACK_FEATURE_" ++ defineToken flag : Text)) =
        b.flags.map fun flag => "SIMPACK_FEATURE_" ++ defineToken flag := flags
    rw [compileDefines, compileDefines, behind, core.1, core.2.1, core.2.2, text]

/-- Behind one another with spaces in between, the defines are told apart. -/
theorem joined_compileDefines_eq_iff :
    Text.joined " " (compileDefines a) = Text.joined " " (compileDefines b) ↔
      compileDefines a = compileDefines b := by
  have told (e : ApiEntry) : Text.splitOn 0x20 (Text.joined " " (compileDefines e)) =
      compileDefines e := by
    apply Text.splitOn_joined _ _ (List.cons_ne_nil _ _)
    rintro define member c inside rfl
    exact absurd (isPrinting_of_mem_compileDefines define member _ inside).1 (by decide)
  constructor
  · intro same
    rw [← told a, same, told b]
  · exact congrArg _

/-- Behind the three of the version there are the defines of the flags, in their order. -/
theorem filter_compileDefines :
    (compileDefines e).filter isFeatureDefine = e.flags.map featureDefine := by
  have version : (compileDefines e).filter isFeatureDefine =
      (e.flags.map featureDefine).filter isFeatureDefine := by rfl
  rw [version, List.filter_eq_self]
  intro define member
  obtain ⟨flag, _, rfl⟩ := List.mem_map.mp member
  rfl

namespace Matrix

variable {m : Matrix} {entries : List ApiEntry}

theorem isFlag_of_checkEntry (h : checkEntry e = .ok ()) :
    ∀ flag ∈ e.flags, isFlag flag = true := by
  intro flag member
  by_contra other
  have inside : flag ∈ flagSet (e.flags ++ e.removedFlags) :=
    mem_flagSet.mpr (List.mem_append_left _ member)
  cases found : (flagSet (e.flags ++ e.removedFlags)).find? fun flag => !isFlag flag with
  | none => exact absurd (List.find?_eq_none.mp found flag inside) (by simpa using other)
  | some first =>
      unfold checkEntry at h
      rw [found] at h
      exact absurd h (by simp [throw, throwThe, MonadExceptOf.throw, bind, Except.bind])

/-- The defines of an entry have no blanks in them: behind those of the version there is one for each
flag, in order. Flags of an entry have one define exactly if they are the same but for a line end
behind them. The defines of two entries, put behind one another, are the same exactly if the three
numbers are and the flags are but for that. So without line ends each flag has a define of its own,
and the defines tell the numbers and the flags. -/
theorem defines_identify_entry (sets : ∀ e ∈ entries, flagSet e.flags = e.flags)
    (registered : Matrix.empty.register entries = .ok m) :
    ∀ a ∈ m.entries, ∀ b ∈ m.entries,
      (compileDefines a).filter isFeatureDefine = a.flags.map featureDefine ∧
      (∀ f ∈ a.flags, ∀ g ∈ a.flags,
        featureDefine f = featureDefine g ↔ plainFlag f = plainFlag g) ∧
      (∀ define ∈ compileDefines a, ∀ c ∈ define, c.isBlank = false) ∧
      (Text.joined " " (compileDefines a) = Text.joined " " (compileDefines b) ↔
        a.version.core = b.version.core ∧ a.flags.map plainFlag = b.flags.map plainFlag) ∧
      ((∀ flag ∈ a.flags ++ b.flags, 0x0A ∉ flag) →
        (a.flags.map featureDefine).Nodup ∧
        (Text.joined " " (compileDefines a) = Text.joined " " (compileDefines b) ↔
          a.version.core = b.version.core ∧ a.flags = b.flags)) := by
  obtain ⟨all, _, checked⟩ := checked_of_register registered
  rw [all]
  intro a first b second
  have formed := isFlag_of_checkEntry (checkEntry_of_checkAll checked a first)
  have also := isFlag_of_checkEntry (checkEntry_of_checkAll checked b second)
  have told : Text.joined " " (compileDefines a) = Text.joined " " (compileDefines b) ↔
      a.version.core = b.version.core ∧ a.flags.map plainFlag = b.flags.map plainFlag := by
    rw [joined_compileDefines_eq_iff, compileDefines_eq_iff, map_featureDefine_eq_iff formed also]
  refine ⟨filter_compileDefines, fun f member g other =>
    featureDefine_eq_iff (formed f member) (formed g other), ?_, told, ?_⟩
  · intro define member c inside
    obtain ⟨low, high⟩ := isPrinting_of_mem_compileDefines define member c inside
    exact CodePoint.isBlank_of_printing low high
  · intro plain
    obtain ⟨one, two⟩ := List.forall_mem_append.mp plain
    have kept (flags : List Text) (none : ∀ flag ∈ flags, 0x0A ∉ flag) :
        flags.map plainFlag = flags :=
      (List.map_congr_left fun flag member => plainFlag_of_none (none flag member)).trans
        (List.map_id flags)
    rw [kept a.flags one, kept b.flags two] at told
    refine ⟨?_, told⟩
    have distinct : a.flags.Nodup := by
      rw [← sets a first]
      exact (ascending_flagSet a.flags).imp fun less => ne_of_lt less
    refine distinct.map_on fun f member g other same => ?_
    rw [featureDefine_eq_iff (formed f member) (formed g other), plainFlag_of_none (one f member),
      plainFlag_of_none (one g other)] at same
    exact same

end Matrix

namespace Sample

/-- Two releases with one core and two versions of a flag between them. -/
def renamedEntries : List ApiEntry := [
  ⟨⟨7, 60, 0, ["rc"], []⟩, ["attach", "v_2"], true, true, []⟩,
  ⟨⟨7, 60, 0, [], []⟩, ["attach", "v2"], false, true, ["v_2"]⟩]

/-- Flags that differ in a `_` alone are told apart. -/
theorem defines_identify_renamed :
    (∀ e ∈ renamedEntries, flagSet e.flags = e.flags) ∧
    Matrix.empty.register renamedEntries = .ok ⟨renamedEntries⟩ ∧
    Text.joined " " (compileDefines renamedEntries[0]) ≠
      Text.joined " " (compileDefines renamedEntries[1]) := by
  have sets : ∀ e ∈ renamedEntries, flagSet e.flags = e.flags := by decide +kernel
  have registered : Matrix.empty.register renamedEntries = .ok ⟨renamedEntries⟩ := by rfl
  refine ⟨sets, registered, fun same => ?_⟩
  obtain ⟨_, _, _, _, plain⟩ := Matrix.defines_identify_entry sets registered _
    (List.getElem_mem (by decide : 0 < 2)) _ (List.getElem_mem (by decide : 1 < 2))
  obtain ⟨_, told⟩ := plain (by decide +kernel)
  exact absurd (told.mp same).2 (by decide +kernel)

/-- An entry with two flags that differ in a line end. -/
def lineEndEntries : List ApiEntry := [⟨⟨1, 0, 0, [], []⟩, ["a\n", "a_"], false, true, []⟩]

/-- Such an entry is registered, and both flags have one define. -/
theorem lineEnd_not_told :
    Matrix.empty.register lineEndEntries = .ok ⟨lineEndEntries⟩ ∧
    (∀ e ∈ lineEndEntries, flagSet e.flags = e.flags) ∧ ("a\n" : Text) ≠ "a_" ∧
    featureDefine "a\n" = featureDefine "a_" := by
  refine ⟨by rfl, by decide +kernel, by decide, by decide +kernel⟩

end Sample

end ModulePackaging
