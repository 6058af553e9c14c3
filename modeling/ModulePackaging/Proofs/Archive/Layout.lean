import Mathlib.Data.List.Nodup
import ModulePackaging.Archive.Basic
import ModulePackaging.Proofs.Descriptors
import ModulePackaging.Proofs.Pieces

/-!
# Paths in archives

What a layout that passes makes sure of: no two members have the same path, the path of the module
is none of a resource, and normalizing a path brings no new characters into it.
-/

namespace ModulePackaging

namespace Layout

/-- No path stands for a folded one that is none of theirs. -/
theorem findFolded?_eq_none {seen : List (Text × Text)} {folded : Text} :
    findFolded? seen folded = none ↔ folded ∉ seen.map Prod.fst := by
  unfold findFolded?
  rw [Option.map_eq_none_iff, List.find?_eq_none]
  simp only [beq_iff_eq, List.mem_map, not_exists, not_and]

/-- Paths fold if their folded forms are different and none is there yet. -/
theorem foldAll_eq_ok {seen found : List (Text × Text)} {paths : List Text}
    (distinct : (seen.map Prod.fst).Nodup) : foldAll seen paths = .ok found ↔
      (seen.map Prod.fst ++ paths.map Text.caseFold).Nodup ∧
        found = seen ++ paths.map fun path => (path.caseFold, path) := by
  induction paths generalizing seen with
  | nil => simp [foldAll, distinct, eq_comm]
  | cons path rest ih =>
      have moved : seen.map Prod.fst ++ (path :: rest).map Text.caseFold =
          (seen ++ [(path.caseFold, path)]).map Prod.fst ++ rest.map Text.caseFold := by
        rw [List.map_append, List.append_assoc]
        rfl
      rw [foldAll]
      split
      · rename_i prior taken
        have old : path.caseFold ∈ seen.map Prod.fst := by
          by_contra new
          rw [findFolded?_eq_none.mpr new] at taken
          exact absurd taken (by simp)
        constructor
        · intro h
          exact absurd h (by simp)
        · rintro ⟨apart, _⟩
          exact absurd rfl
            ((List.nodup_append.mp apart).2.2 _ old _ (List.mem_map_of_mem List.mem_cons_self))
      · rename_i new
        have grown : ((seen ++ [(path.caseFold, path)]).map Prod.fst).Nodup := by
          rw [List.map_append, List.nodup_append_comm]
          exact List.nodup_cons.mpr ⟨findFolded?_eq_none.mp new, distinct⟩
        rw [ih grown, moved, List.append_assoc]
        rfl

/-- No directory above the paths is a file, if none is among the files that are folded. -/
theorem checkAllDirectories_eq_ok {seen : List (Text × Text)} {paths : List Text} :
    checkAllDirectories seen paths = .ok () ↔
      ∀ path ∈ paths, ∀ directory ∈ directoriesOf path.caseFold,
        directory ∉ seen.map Prod.fst := by
  induction paths with
  | nil => simp [checkAllDirectories]
  | cons path rest ih =>
      have first : checkDirectories seen path = .ok () ↔
          ∀ directory ∈ directoriesOf path.caseFold, directory ∉ seen.map Prod.fst := by
        simp only [← findFolded?_eq_none]
        rw [← List.findSome?_eq_none_iff]
        unfold checkDirectories
        split
        · rename_i file found
          simp [found]
        · rename_i none
          simp [none]
      rw [checkAllDirectories, bind_eq_ok, List.forall_mem_cons, ← ih, ← first]
      constructor
      · rintro ⟨⟨⟩, one, others⟩
        exact ⟨one, others⟩
      · rintro ⟨one, others⟩
        exact ⟨(), one, others⟩

/-- Paths can be together if their folded forms are different and none of these is a directory of
another one. -/
theorem check_eq_ok {paths : List Text} : check paths = .ok () ↔
    (paths.map Text.caseFold).Nodup ∧ ∀ path ∈ paths, ∀ directory ∈ directoriesOf path.caseFold,
      directory ∉ paths.map Text.caseFold := by
  have folded : ∀ found, foldAll [] paths = .ok found ↔ (paths.map Text.caseFold).Nodup ∧
      found = paths.map fun path => (path.caseFold, path) := fun _ => foldAll_eq_ok List.nodup_nil
  unfold check
  simp only [bind_eq_ok, folded]
  have keys : (paths.map fun path => (path.caseFold, path)).map Prod.fst =
      paths.map Text.caseFold := by
    rw [List.map_map]
    rfl
  constructor
  · rintro ⟨_, ⟨distinct, rfl⟩, directories⟩
    rw [checkAllDirectories_eq_ok, keys] at directories
    exact ⟨distinct, directories⟩
  · rintro ⟨distinct, directories⟩
    refine ⟨_, ⟨distinct, rfl⟩, ?_⟩
    rw [checkAllDirectories_eq_ok, keys]
    exact directories

/-- Paths that can be together are different. -/
theorem nodup_of_check {paths : List Text} (h : check paths = .ok ()) : paths.Nodup :=
  List.Nodup.of_map _ (check_eq_ok.mp h).1

/-- Normalizing brings nothing but slashes and dots into a path. -/
theorem mem_of_normalize {path normal : Text} (h : normalize path = .ok normal) {c : CodePoint}
    (inside : c ∈ normal) : c ∈ path ∨ c = Path.slash ∨ c = CodePoint.ofChar '.' := by
  unfold normalize at h
  simp only at h
  split at h
  · exact absurd h (by simp)
  split at h
  · exact absurd h (by simp)
  split at h
  · exact absurd h (by simp)
  obtain rfl := Except.ok.inj h
  have replaced {c : CodePoint} (inside : c ∈ path.replacing '\\' '/') :
      c ∈ path ∨ c = Path.slash := by
    obtain ⟨d, source, same⟩ := List.mem_map.mp inside
    split at same
    · exact .inr same.symm
    · exact .inl (same ▸ source)
  unfold Path.toText at inside
  simp only at inside
  split at inside
  · exact .inr (.inr (List.mem_singleton.mp inside))
  · rcases List.mem_append.mp inside with anchor | parts
    · have slashes : ∀ (a : Anchor) (d : CodePoint), d ∈ a.text → d = Path.slash := by
        intro a d start
        cases a with
        | relative => exact absurd start List.not_mem_nil
        | root => exact List.mem_singleton.mp start
        | doubleRoot => simpa using (show d ∈ [Path.slash, Path.slash] from start)
      exact .inr (.inl (slashes _ c anchor))
    · rcases Text.mem_joined parts with sep | ⟨piece, member, inside⟩
      · exact .inr (.inl (List.mem_singleton.mp sep))
      · have kept : piece ∈ Text.splitOn Path.slash _ := (List.mem_filter.mp member).1
        exact (replaced (List.mem_of_mem_drop (Text.mem_of_mem_splitOn kept inside))).imp_right .inl

/-- A path without null characters has a normal form without null characters. -/
theorem nonzero_of_normalize {path normal : Text} (h : normalize path = .ok normal)
    (none : 0 ∉ path) : 0 ∉ normal := by
  intro zero
  rcases mem_of_normalize h zero with inside | slash | dot
  · exact none inside
  · exact absurd slash (by decide)
  · exact absurd dot (by decide)

/-- A path that is encodable has an encodable normal form. -/
theorem isEncodable_of_normalize {path normal : Text} (h : normalize path = .ok normal)
    (encodable : path.IsEncodable) : normal.IsEncodable := by
  intro c inside
  rcases mem_of_normalize h inside with source | rfl | rfl
  · exact encodable c source
  · decide
  · decide

theorem startsWith_resourcePath (path : Text) :
    (resourcePath path).startsWith resourcesStart = true := by
  rw [Text.startsWith, resourcePath, List.isPrefixOf_iff_prefix]
  exact List.prefix_append _ _

end Layout

/-! ## The path of the module -/

/-- No other sign is in a package name. -/
theorem notMem_of_isPackageName {t : Text} (h : isPackageName t = true) {c : CodePoint}
    (other : (c.isAsciiLower || c.isAsciiDigit || c = '_' || c = '-') = false) : c ∉ t := by
  intro inside
  rw [isNamePoint_of_mem h c inside] at other
  exact absurd other (by simp)

namespace Draft

/-- A checked descriptor has a place for its module. -/
theorem exists_modulePath {d : Descriptor} (checked : d.IsChecked) :
    ∃ path, d.draft.modulePath = .ok path := by
  obtain ⟨host, known⟩ := checked.hostTriple
  have found : d.draft.host = .ok host := mapError_eq_ok.mpr known
  exact ⟨_, bind_eq_ok.mpr ⟨host, found, rfl⟩⟩

/-- The module of a checked descriptor has its place, and that is none of a resource's. -/
theorem modulePath_draft {d : Descriptor} {path : Text} (checked : d.IsChecked)
    (h : d.draft.modulePath = .ok path) :
    0 ∉ path ∧ path.startsWith Layout.resourcesStart = false ∧ 4 ≤ path.length := by
  unfold modulePath at h
  obtain ⟨host, _, h⟩ := bind_eq_ok.mp h
  have form : host.key ++ "/lib/" ++ host.libraryFilename d.name = path := Except.ok.inj h
  have name : 0 ∉ d.name := notMem_of_isPackageName checked.name (by decide)
  subst form
  unfold Host.libraryFilename
  refine ⟨?_, ?_, ?_⟩
  · simp only [List.mem_append, not_or]
    cases host
    · exact ⟨⟨by decide, by decide⟩, name, by decide⟩
    · exact ⟨⟨by decide, by decide⟩, name, by decide⟩
  · cases host <;> rfl
  · cases host
    · simp only [List.length_append, Host.key]
      have : (Text.ofString "linux64").length = 7 := rfl
      omega
    · simp only [List.length_append, Host.key]
      have : (Text.ofString "win64").length = 5 := rfl
      omega

end Draft

namespace Resource

variable {r s : Resource} {resources normal : List Resource}

/-- Normalizing a resource normalizes its path and keeps what it holds. -/
theorem normalize_eq_ok : r.normalize = .ok s ↔
    Layout.normalize r.path = .ok s.path ∧ s.data = r.data := by
  unfold normalize
  rw [bind_eq_ok]
  constructor
  · rintro ⟨path, normalized, same⟩
    obtain rfl := Except.ok.inj same
    exact ⟨normalized, rfl⟩
  · rintro ⟨normalized, same⟩
    refine ⟨s.path, normalized, ?_⟩
    rw [← same]
    rfl

/-- A resource at the normal form of its path stands for one of those that were normalized. -/
theorem exists_of_normalized (h : resources.mapM Resource.normalize = .ok normal) :
    ∀ r ∈ normal, ∃ source ∈ resources, Layout.normalize source.path = .ok r.path := by
  intro r member
  obtain ⟨source, inside, normalized⟩ := exists_of_mapM h r member
  exact ⟨source, inside, (normalize_eq_ok.mp normalized).1⟩

end Resource

namespace Archive

/-- Members that can be laid out together have different paths. -/
theorem nodup_of_checkLayout {path : Text} {resources : List Resource}
    (h : checkLayout path resources = .ok ()) :
    (Layout.manifestPath :: path :: resources.map fun r => Layout.resourcePath r.path).Nodup := by
  unfold checkLayout at h
  obtain ⟨_, _, laid⟩ := bind_eq_ok.mp h
  exact Layout.nodup_of_check laid

end Archive

end ModulePackaging
