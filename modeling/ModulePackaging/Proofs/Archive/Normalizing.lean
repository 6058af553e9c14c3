import ModulePackaging.Proofs.Archive.Extraction

/-!
# Paths that have a normal form

Which paths of resources are accepted, told by their text alone: those that start with no slash, name
something, and have no dots for a name, where a backslash is a slash. What is accepted is normalized
to the names on it with one slash between each two, and that is its own normal form.
-/

namespace ModulePackaging

namespace Path

/-- A text stands for a relative path unless it starts with a slash. -/
theorem isAbsolute_ofText_eq_false {t : Text} :
    (ofText t).isAbsolute = false ↔ t.head? ≠ some slash := by
  have anchored : ∀ n, anchorOf n = .relative ↔ n = 0
    | 0 => by decide
    | 1 => by decide
    | 2 => by decide
    | n + 3 => by simp [anchorOf]
  have start : (ofText t).isAbsolute = false ↔ (t.takeWhile (· == slash)).length = 0 := by
    rw [← anchored]
    show ((ofText t).anchor != .relative) = false ↔ (ofText t).anchor = .relative
    rw [bne_eq_false_iff_eq]
  rw [start]
  cases t with
  | nil => simp
  | cons c rest => by_cases here : c = slash <;> simp [here]

end Path

namespace Layout

variable {path normal : Text}

/-- The segments of a path, empty ones included. -/
def segments (path : Text) : List Text := Text.splitOn Path.slash (path.replacing '\\' '/')

/-- The names on a path: its segments without the empty ones. -/
def names (path : Text) : List Text := (segments path).filter fun segment => !segment.isEmpty

/-- A path that leads to something below where it starts from, whatever that is. -/
structure IsSafe (path : Text) : Prop where
  relative : (path.replacing '\\' '/').head? ≠ some Path.slash
  some : ∃ segment ∈ segments path, segment ≠ []
  dotless : ∀ segment ∈ segments path, segment ≠ [0x2E] ∧ segment ≠ [0x2E, 0x2E]

/-- The names on a path without dots are the parts of the path that its text stands for. -/
theorem parts_of_dotless (dotless : ∀ segment ∈ segments path, segment ≠ [0x2E]) :
    (Path.ofText (path.replacing '\\' '/')).parts = names path := by
  rw [Path.parts_ofText]
  refine List.filter_congr fun segment member => ?_
  simp [Path.isPart, dotless segment member]

/-- The names on a safe path are plain. -/
theorem IsSafe.plain (safe : IsSafe path) : ∀ name ∈ names path, Path.IsPlainName name := by
  intro name member
  obtain ⟨segment, filled⟩ := List.mem_filter.mp member
  obtain ⟨dot, back⟩ := safe.dotless name segment
  exact ⟨by simpa using filled, Text.notMem_of_mem_splitOn segment, dot, back⟩

theorem IsSafe.names_ne_nil (safe : IsSafe path) : names path ≠ [] := by
  obtain ⟨segment, member, filled⟩ := safe.some
  exact List.ne_nil_of_mem (List.mem_filter.mpr ⟨member, by simpa using filled⟩)

/-- The text of a safe path stands for the relative path of its names. -/
theorem IsSafe.ofText_eq (safe : IsSafe path) :
    Path.ofText (path.replacing '\\' '/') = ⟨.relative, names path⟩ := by
  have anchor : (Path.ofText (path.replacing '\\' '/')).anchor = .relative := by
    simpa [Path.isAbsolute] using Path.isAbsolute_ofText_eq_false.mpr safe.relative
  have parts := parts_of_dotless fun segment member => (safe.dotless segment member).1
  exact congrArg₂ Path.mk anchor parts

/-- A safe path passes the three checks. -/
theorem IsSafe.normalize_eq (safe : IsSafe path) :
    normalize path = .ok (Text.joined [Path.slash] (names path)) := by
  have dotless : (Text.splitOn '/' (path.replacing '\\' '/')).any isDots = false := by
    rw [List.any_eq_false]
    intro segment member
    simpa [isDots] using safe.dotless segment member
  have relative : (⟨.relative, names path⟩ : Path).isAbsolute = false := rfl
  have named : (names path).isEmpty = false := by simpa using safe.names_ne_nil
  unfold normalize
  simp only [safe.ofText_eq, relative, named, dotless, Bool.false_eq_true, if_false]
  rw [toText_of_plain safe.names_ne_nil safe.plain]

/-- What passes the three checks is safe: each of them rules out one way not to be. -/
theorem isSafe_of_normalize (accepted : normalize path = .ok normal) : IsSafe path := by
  unfold normalize at accepted
  simp only at accepted
  split at accepted
  · exact absurd accepted (by simp)
  rename_i notAbsolute
  split at accepted
  · exact absurd accepted (by simp)
  rename_i named
  split at accepted
  · exact absurd accepted (by simp)
  rename_i noDots
  have dotless : ∀ segment ∈ segments path, segment ≠ [0x2E] ∧ segment ≠ [0x2E, 0x2E] := by
    intro segment member
    simpa [isDots] using List.any_eq_false.mp (eq_false_of_ne_true noDots) segment member
  refine ⟨Path.isAbsolute_ofText_eq_false.mp (eq_false_of_ne_true notAbsolute), ?_, dotless⟩
  rw [parts_of_dotless fun segment member => (dotless segment member).1] at named
  obtain ⟨segment, member⟩ := List.exists_mem_of_ne_nil (names path) (by simpa using named)
  obtain ⟨inside, filled⟩ := List.mem_filter.mp member
  exact ⟨segment, inside, by simpa using filled⟩

/-- Exactly the safe paths are accepted. The normal form of one has its names with a slash between
each two, and is its own normal form. -/
theorem normalize_accepts_exactly_safe (path : Text) :
    ((∃ normal, normalize path = .ok normal) ↔ IsSafe path) ∧
      ∀ normal, normalize path = .ok normal →
        normal = Text.joined [Path.slash] (names path) ∧ normalize normal = .ok normal := by
  refine ⟨⟨fun ⟨_, accepted⟩ => isSafe_of_normalize accepted, fun safe => ⟨_, safe.normalize_eq⟩⟩,
    fun normal accepted => ⟨?_, (isPlain_of_normalize accepted).normalize_eq⟩⟩
  have form := (isSafe_of_normalize accepted).normalize_eq
  exact Except.ok.inj (accepted.symm.trans form)

end Layout

namespace Sample

/-- A path with both signs that part names, some of them doubled, and one at its end. -/
def mixedPath : Text := "doc\\\\a b//..c\\/.d.md/"

/-- The path is accepted, and its normal form is its own. -/
theorem mixedPath_accepted : Layout.IsSafe mixedPath ∧
    Layout.normalize mixedPath = .ok "doc/a b/..c/.d.md" ∧
    Layout.normalize "doc/a b/..c/.d.md" = .ok "doc/a b/..c/.d.md" := by
  obtain ⟨accepts, forms⟩ := Layout.normalize_accepts_exactly_safe mixedPath
  have accepted : Layout.normalize mixedPath = .ok "doc/a b/..c/.d.md" := by decide +kernel
  exact ⟨accepts.mp ⟨_, accepted⟩, accepted, (forms _ accepted).2⟩

end Sample

end ModulePackaging
