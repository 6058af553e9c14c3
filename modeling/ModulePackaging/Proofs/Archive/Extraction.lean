import ModulePackaging.Proofs.Archive.Layout
import ModulePackaging.Proofs.Files.Names

/-!
# Where members land

A path in its normal form leads from a directory to a place below it, one directory down with each
name. Paths that pass as a layout lead to places none of which is another one or above it, on a file
system that ignores case too, so members that are extracted neither leave the directory nor meet.
-/

namespace ModulePackaging

/-! ## Folding and slashes -/

/-- The runs of folded letters all lie behind the slash. -/
theorem CodePoint.shift_ne_slash {c : CodePoint} (other : c ≠ Path.slash) :
    c.shift Text.foldShifts ≠ Path.slash := by
  unfold shift
  split
  · rename_i run found
    -- A run moves its first letter the least far down, so one check for each run is enough.
    have table : Text.foldShifts.all fun run => decide (0x2F < (run.first : Int) + run.shift) := by
      decide
    have behind := of_decide_eq_true
      (List.all_eq_true.mp table run (List.mem_of_find?_eq_some found))
    have held := List.find?_some found
    simp only [Bool.and_eq_true, decide_eq_true_eq] at held
    rw [ne_eq, Fin.ext_iff, ofNat]
    show ¬ _ = 0x2F
    split
    · show ¬ ((c.val : Int) + run.shift).toNat = 0x2F
      omega
    · decide
  · exact other

namespace Text

/-- Only a slash folds to a text with a slash. -/
theorem slash_notMem_foldPoint {c : CodePoint} (other : c ≠ Path.slash) :
    Path.slash ∉ foldPoint c := by
  unfold foldPoint
  split
  · rename_i ascii
    split
    · rename_i capital
      rw [List.mem_singleton, Fin.ext_iff, CodePoint.ofNat, dif_pos (by omega)]
      show ¬ 0x2F = c.val + 0x20
      omega
    · rw [List.mem_singleton]
      exact Ne.symm other
  · split
    · rename_i folded found
      have table : foldExpansions.all fun entry =>
          (entry.2.map CodePoint.ofNat).all (· != Path.slash) := by decide
      obtain ⟨front, back, form, _⟩ := List.lookup_eq_some_iff.mp found
      have entry : (c.val, folded) ∈ foldExpansions := by
        rw [form]
        exact List.mem_append_right _ List.mem_cons_self
      intro slash
      have apart := List.all_eq_true.mp (List.all_eq_true.mp table _ entry) _ slash
      exact absurd apart (by simp)
    · rw [List.mem_singleton]
      exact Ne.symm (CodePoint.shift_ne_slash other)

/-- Folding goes through a path name by name. -/
theorem splitOn_caseFold (t : Text) :
    splitOn Path.slash t.caseFold = (splitOn Path.slash t).map caseFold := by
  induction t with
  | nil => rfl
  | cons c rest ih =>
      obtain ⟨first, others, names⟩ :=
        List.exists_cons_of_ne_nil (splitOn_ne_nil Path.slash rest)
      rw [names, List.map_cons] at ih
      have folded : caseFold (c :: rest) = foldPoint c ++ caseFold rest := List.flatMap_cons
      -- A slash stays one, and no other sign brings one in.
      by_cases here : c = Path.slash
      · have kept : foldPoint c ++ caseFold rest = Path.slash :: caseFold rest := by
          rw [here]
          rfl
        rw [folded, kept, here]
        unfold splitOn at ih names ⊢
        rw [splitWhere, if_pos (by simp), ih, splitWhere, if_pos (by simp), names]
        rfl
      · rw [folded, splitOn_append_of_none (slash_notMem_foldPoint here) ih]
        unfold splitOn at names ⊢
        rw [splitWhere, if_neg (by simpa using here), names]
        show _ = caseFold (c :: first) :: _
        rw [caseFold, caseFold, List.flatMap_cons]

end Text

/-! ## Layouts -/

namespace Layout

/-- The names on a path, with the case of their letters ignored. -/
def foldedNames (path : Text) : List Text := (Text.splitOn Path.slash path).map Text.caseFold

theorem foldedNames_eq (path : Text) : foldedNames path = Text.splitOn Path.slash path.caseFold :=
  (Text.splitOn_caseFold path).symm

/-- The first names on a path are those of the path that they make up. -/
theorem splitOn_joined_take (path : Text) (n : Nat) :
    Text.splitOn Path.slash
        (Text.joined [Path.slash] ((Text.splitOn Path.slash path).take (n + 1))) =
      (Text.splitOn Path.slash path).take (n + 1) := by
  apply Text.splitOn_joined
  · have some := List.length_pos_iff.mpr (Text.splitOn_ne_nil Path.slash path)
    rw [← List.length_pos_iff, List.length_take]
    omega
  · rintro name member c inside rfl
    exact Text.notMem_of_mem_splitOn (List.mem_of_mem_take member) inside

/-- The directories above a path are the other paths whose names it begins with. -/
theorem mem_directoriesOf {path directory : Text} : directory ∈ directoriesOf path ↔
    Text.splitOn Path.slash directory <+: Text.splitOn Path.slash path ∧ directory ≠ path := by
  have form : directory ∈ directoriesOf path ↔
      ∃ n < (Text.splitOn Path.slash path).length - 1,
        Text.joined [Path.slash] ((Text.splitOn Path.slash path).take (n + 1)) = directory := by
    show directory ∈ (List.range ((Text.splitOn Path.slash path).length - 1)).map (fun n =>
      Text.joined [Path.slash] ((Text.splitOn Path.slash path).take (n + 1))) ↔ _
    rw [List.mem_map]
    simp only [List.mem_range]
  rw [form]
  constructor
  · rintro ⟨n, bound, rfl⟩
    have split := splitOn_joined_take path n
    rw [split]
    refine ⟨List.take_prefix _ _, ?_⟩
    intro same
    rw [same] at split
    have lengths := congrArg List.length split
    rw [List.length_take, Nat.min_eq_left (by omega)] at lengths
    omega
  · rintro ⟨starts, other⟩
    have front := List.prefix_iff_eq_take.mp starts
    have some := List.length_pos_iff.mpr (Text.splitOn_ne_nil Path.slash directory)
    have bound := starts.length_le
    have less : (Text.splitOn Path.slash directory).length ≠
        (Text.splitOn Path.slash path).length := by
      intro same
      rw [same, List.take_length] at front
      have whole := Text.joined_splitOn Path.slash directory
      rw [front, Text.joined_splitOn] at whole
      exact other whole.symm
    refine ⟨(Text.splitOn Path.slash directory).length - 1, by omega, ?_⟩
    rw [Nat.sub_add_cancel some, ← front, Text.joined_splitOn]

/-- Paths can be together if they are different and, their case ignored, none begins with the names
of another one. -/
theorem check_eq_ok_iff_apart {paths : List Text} : check paths = .ok () ↔
    paths.Nodup ∧ ∀ path ∈ paths, ∀ other ∈ paths, other ≠ path →
      ¬ foldedNames other <+: foldedNames path := by
  simp only [check_eq_ok, mem_directoriesOf, foldedNames_eq, List.mem_map]
  constructor
  · rintro ⟨distinct, directories⟩
    refine ⟨List.Nodup.of_map _ distinct, ?_⟩
    intro path member other inside differs starts
    apply directories path member other.caseFold ⟨starts, ?_⟩ ⟨other, inside, rfl⟩
    intro same
    exact differs (List.inj_on_of_nodup_map distinct inside member same)
  · rintro ⟨distinct, apart⟩
    constructor
    · refine List.Nodup.map_on ?_ distinct
      intro path member other inside same
      by_contra differs
      exact apart other inside path member differs (same ▸ List.prefix_refl _)
    · rintro path member _ ⟨starts, differs⟩ ⟨other, inside, rfl⟩
      exact apart path member other inside (fun same => differs (same ▸ rfl)) starts

/-- The order of paths does not matter to whether they can be together. -/
theorem check_eq_ok_of_perm {paths others : List Text} (same : paths.Perm others) :
    check paths = .ok () ↔ check others = .ok () := by
  simp only [check_eq_ok_iff_apart, same.nodup_iff, same.mem_iff]

/-! ## Normal forms -/

/-- A path each name of which leads one directory down, without the sign that some systems take for
a slash. -/
structure IsPlain (path : Text) : Prop where
  slashes : CodePoint.ofChar '\\' ∉ path
  names : ∀ name ∈ Text.splitOn Path.slash path, Path.IsPlainName name

/-- The text of a path of plain names has a slash between each two of them. -/
theorem toText_of_plain {names : List Text} (some : names ≠ [])
    (plain : ∀ name ∈ names, Path.IsPlainName name) :
    (⟨.relative, names⟩ : Path).toText = Text.joined [Path.slash] names := by
  have filled : (Text.joined [Path.slash] names).isEmpty = false := by
    rw [List.isEmpty_eq_false_iff]
    intro empty
    have pieces := Text.splitOn_joined Path.slash names some fun name member c inside same =>
      (plain name member).slash (same ▸ inside)
    rw [empty] at pieces
    have unnamed : [] ∈ names := pieces ▸ List.mem_cons_self
    exact (plain [] unnamed).some rfl
  exact if_neg (Bool.eq_false_iff.mp filled)

/-- A plain path as a text is the path of its names. -/
theorem IsPlain.ofText_eq {path : Text} (plain : IsPlain path) :
    Path.ofText path = ⟨.relative, Text.splitOn Path.slash path⟩ := by
  have anchor : (Path.ofText path).anchor = .relative := by
    show Path.anchorOf (path.takeWhile (· == Path.slash)).length = .relative
    cases path with
    | nil => rfl
    | cons c rest =>
        have other : ¬ (c == Path.slash) = true := by
          intro here
          have empty : ([] : Text) ∈ Text.splitOn Path.slash (c :: rest) := by
            rw [Text.splitOn, Text.splitWhere, if_pos here]
            exact List.mem_cons_self
          exact (plain.names _ empty).some rfl
        rw [List.takeWhile_cons, if_neg other]
        rfl
  have parts : (Path.ofText path).parts = Text.splitOn Path.slash path := by
    rw [Path.parts_ofText, List.filter_eq_self]
    intro name member
    simp [Path.isPart, (plain.names name member).some, (plain.names name member).dot]
  exact congrArg₂ Path.mk anchor parts

/-- Plain paths are normal. -/
theorem IsPlain.normalize_eq {path : Text} (plain : IsPlain path) : normalize path = .ok path := by
  have kept : path.replacing '\\' '/' = path := by
    unfold Text.replacing
    conv_rhs => rw [← List.map_id path]
    apply List.map_congr_left
    intro c member
    rw [if_neg]
    · rfl
    · rintro rfl
      exact plain.slashes member
  have names := Text.splitOn_ne_nil Path.slash path
  have noDots : (Text.splitOn Path.slash path).any isDots = false := by
    rw [List.any_eq_false]
    intro name member
    have dot := (plain.names name member).dot
    have back : name ≠ [0x2E, 0x2E] := (plain.names name member).back
    simp [isDots, dot, back]
  have text : (⟨.relative, Text.splitOn Path.slash path⟩ : Path).toText = path := by
    rw [toText_of_plain names plain.names, Text.joined_splitOn]
  have relative : (⟨.relative, Text.splitOn Path.slash path⟩ : Path).isAbsolute = false := rfl
  unfold normalize
  simp only [kept, plain.ofText_eq, text, relative, Bool.false_eq_true, if_false]
  rw [if_neg (by simpa using names)]
  exact if_neg (Bool.eq_false_iff.mp noDots)

/-- The text of a relative path is plain if its own text has no backslash and no dots. -/
theorem isPlain_toText {t : Text} (clean : CodePoint.ofChar '\\' ∉ t)
    (relative : (Path.ofText t).anchor = .relative) (some : (Path.ofText t).parts ≠ [])
    (noDots : ∀ piece ∈ Text.splitOn Path.slash t, isDots piece ≠ true) :
    IsPlain (Path.ofText t).toText := by
  have names : ∀ name ∈ (Path.ofText t).parts, Path.IsPlainName name := by
    intro name member
    refine Path.isPlainName_of_mem_parts member ?_
    rintro rfl
    exact noDots _ (Path.mem_splitOn_of_mem_parts member) (by decide)
  have text : (Path.ofText t).toText = Text.joined [Path.slash] (Path.ofText t).parts := by
    rw [← toText_of_plain some names, ← relative]
  rw [text]
  constructor
  · intro back
    rcases Text.mem_joined back with sep | ⟨name, member, inside⟩
    · exact absurd sep (by decide)
    · exact clean (Text.mem_of_mem_splitOn (Path.mem_splitOn_of_mem_parts member) inside)
  · rw [Text.splitOn_joined Path.slash _ some]
    · exact names
    · rintro name member c inside rfl
      exact (names name member).slash inside

/-- Normalizing makes a path plain. -/
theorem isPlain_of_normalize {path normal : Text} (h : normalize path = .ok normal) :
    IsPlain normal := by
  unfold normalize at h
  simp only at h
  split at h
  · exact absurd h (by simp)
  rename_i relative
  split at h
  · exact absurd h (by simp)
  rename_i some
  split at h
  · exact absurd h (by simp)
  rename_i noDots
  obtain rfl := Except.ok.inj h
  rw [List.any_eq_true] at noDots
  refine isPlain_toText ?_ (by simpa [Path.isAbsolute] using relative) (by simpa using some)
    fun piece member dots => noDots ⟨piece, member, dots⟩
  -- Each backslash has become a slash.
  intro back
  obtain ⟨c, _, same⟩ := List.mem_map.mp back
  split at same
  · exact absurd same (by decide)
  · rename_i other
    exact other same

/-- Exactly the plain paths are their own normal forms. -/
theorem normalize_eq_self_iff {path : Text} : normalize path = .ok path ↔ IsPlain path :=
  ⟨isPlain_of_normalize, IsPlain.normalize_eq⟩

/-! ## Places -/

variable {target : Files.Location} {name : Text} {names : List Text}

/-- Where the member of a name lands when it is extracted at a location. -/
def landing (target : Files.Location) (name : Text) : Files.Location :=
  Files.Tree.placeOf ⟨target, []⟩ (Path.ofText name)

/-- The member of a plain name lands below the target, one directory down with each name. -/
theorem landing_of_isPlain (plain : IsPlain name) (target : Files.Location) :
    landing target name = target ++ Text.splitOn Path.slash name := by
  unfold landing Files.Tree.placeOf
  rw [plain.ofText_eq]
  exact Files.Tree.walk_of_forward (fun member => (plain.names _ member).back rfl) target

/-- Members that are extracted at a location stay below it, and none lands where another one or a
directory of another one is, even if the case of letters is ignored. -/
structure LandsApart (target : Files.Location) (names : List Text) : Prop where
  below : ∀ name ∈ names, ∃ rest, rest ≠ [] ∧ landing target name = target ++ rest
  apart : ∀ name ∈ names, ∀ other ∈ names, other ≠ name →
    ¬ (landing target other).map Text.caseFold <+: (landing target name).map Text.caseFold

/-- Plain names that are apart land apart. -/
theorem landsApart_of_isPlain (plain : ∀ name ∈ names, IsPlain name)
    (apart : ∀ name ∈ names, ∀ other ∈ names, other ≠ name →
      ¬ foldedNames other <+: foldedNames name) : LandsApart target names := by
  constructor
  · intro name member
    exact ⟨_, Text.splitOn_ne_nil _ _, landing_of_isPlain (plain name member) target⟩
  · intro name member other inside differs starts
    rw [landing_of_isPlain (plain name member), landing_of_isPlain (plain other inside),
      List.map_append, List.map_append, List.prefix_append_right_inj] at starts
    exact apart name member other inside differs starts

/-! ## The names of an archive -/

theorem isPlain_manifestPath : IsPlain manifestPath := by
  refine ⟨by decide, ?_⟩
  intro name member
  obtain rfl : name = manifestPath := List.mem_singleton.mp member
  exact ⟨by decide, by decide, by decide, by decide⟩

/-- The names on the path of a resource are those of its own path below one directory. -/
theorem splitOn_resourcePath (path : Text) : Text.splitOn Path.slash (resourcePath path) =
    Text.ofString "resources" :: Text.splitOn Path.slash path := by
  have start : resourcePath path = Text.ofString "resources" ++ Path.slash :: path := rfl
  have signs : (Text.ofString "resources").all (fun c => !(c == Path.slash)) = true := by decide
  have none : ∀ c ∈ Text.ofString "resources", (c == Path.slash) = false := by
    intro c member
    simpa using List.all_eq_true.mp signs c member
  rw [start]
  exact Text.splitWhere_append none (beq_self_eq_true _) path

theorem resourcePath_ne_manifestPath (path : Text) : resourcePath path ≠ manifestPath := by
  intro same
  have starts := startsWith_resourcePath path
  rw [same] at starts
  exact absurd starts (by decide)

theorem resourcePath_injective : Function.Injective resourcePath := fun _ _ =>
  List.append_cancel_left

theorem IsPlain.resourcePath {path : Text} (plain : IsPlain path) :
    IsPlain (resourcePath path) := by
  constructor
  · show _ ∉ resourcesStart ++ path
    rw [List.mem_append, not_or]
    exact ⟨by decide, plain.slashes⟩
  · rw [splitOn_resourcePath, List.forall_mem_cons]
    exact ⟨⟨by decide, by decide, by decide, by decide⟩, plain.names⟩

end Layout

/-- The file of a library is named by its suffix, so by more than dots. -/
theorem Host.isPlainName_libraryFilename (host : Host) {name : Text} (slash : Path.slash ∉ name) :
    Path.IsPlainName (host.libraryFilename name) := by
  refine Path.isPlainName_of_length ?_ ?_
  · have suffix : 2 < host.librarySuffix.length := by cases host <;> decide
    rw [libraryFilename, List.length_append]
    omega
  · rw [libraryFilename, List.mem_append, not_or]
    exact ⟨slash, by cases host <;> decide⟩

/-- The path of a module has a name on it for the host, one for all modules and one for this module,
each of them plain. -/
theorem Draft.splitOn_modulePath {d : Descriptor} {path : Text} (checked : d.IsChecked)
    (h : d.draft.modulePath = .ok path) :
    ∃ host : Host, path = host.key ++ "/lib/" ++ host.libraryFilename d.name ∧
      Text.splitOn Path.slash path =
        [host.key, Text.ofString "lib", host.libraryFilename d.name] ∧
      ∀ name ∈ Text.splitOn Path.slash path, Path.IsPlainName name := by
  unfold modulePath at h
  obtain ⟨host, _, h⟩ := bind_eq_ok.mp h
  have form : host.key ++ "/lib/" ++ host.libraryFilename d.name = path := Except.ok.inj h
  have slash : Path.slash ∉ d.name := notMem_of_isPackageName checked.name (by decide)
  have joined : path = Text.joined [Path.slash]
      [host.key, Text.ofString "lib", host.libraryFilename d.name] := by
    rw [← form]
    cases host <;> rfl
  have plain : ∀ name ∈ [host.key, Text.ofString "lib", host.libraryFilename d.name],
      Path.IsPlainName name := by
    simp only [List.forall_mem_cons, List.not_mem_nil, false_implies, implies_true, and_true]
    refine ⟨?_, ⟨by decide, by decide, by decide, by decide⟩, ?_⟩
    · cases host <;> exact ⟨by decide, by decide, by decide, by decide⟩
    · exact host.isPlainName_libraryFilename slash
  have split := Text.splitOn_joined Path.slash _ (List.cons_ne_nil _ _)
    fun name member c inside same => (plain name member).slash (same ▸ inside)
  rw [← joined] at split
  exact ⟨host, form.symm, split, split ▸ plain⟩

/-- The path of a module is plain, with three names on it. -/
theorem Draft.modulePath_isPlain {d : Descriptor} {path : Text} (checked : d.IsChecked)
    (h : d.draft.modulePath = .ok path) :
    Layout.IsPlain path ∧ (Text.splitOn Path.slash path).length = 3 := by
  obtain ⟨host, form, split, plain⟩ := splitOn_modulePath checked h
  have backslash : CodePoint.ofChar '\\' ∉ d.name :=
    notMem_of_isPackageName checked.name (by decide)
  refine ⟨⟨?_, plain⟩, by rw [split]; rfl⟩
  rw [form, Host.libraryFilename]
  simp only [List.mem_append, not_or]
  cases host <;> exact ⟨⟨by decide, by decide⟩, backslash, by decide⟩

end ModulePackaging
