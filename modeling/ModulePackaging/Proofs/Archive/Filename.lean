import ModulePackaging.Proofs.Archive.Staging

/-!
# Names of archives

The file name of an archive ends in its host and a suffix, so it is a plain name, and it can be told
from the name of a staging directory and from that of a file beside a ledger.
-/

namespace ModulePackaging

namespace Archive

open Files.Tree

/-- The sign in front of the suffix of a file. -/
def point : CodePoint := 0x2E

/-- The last name of the path of an archive. -/
structure IsArchiveName (name : Text) : Prop where
  plain : Path.IsPlainName name
  ends : ∃ front, name = front ++ "64.spkg"

/-- An archive goes to a path that ends in the name of an archive. -/
theorem isArchiveName_of_filename {draft : Draft} {api filename : Text}
    (h : draft.archiveFilename api = .ok filename) (dir : Path) :
    IsArchiveName (dir / Path.ofText filename).name := by
  unfold Draft.archiveFilename at h
  obtain ⟨host, _, h⟩ := bind_eq_ok.mp h
  obtain ⟨package, _, h⟩ := bind_eq_ok.mp h
  obtain ⟨numericId, _, h⟩ := bind_eq_ok.mp h
  obtain ⟨version, _, h⟩ := bind_eq_ok.mp h
  obtain rfl := Except.ok.inj h
  have ends : ∃ front, host.key ++ Layout.archiveSuffix = front ++ ("64.spkg" : Text) := by
    cases host with
    | linux64 => exact ⟨"linux", by decide⟩
    | win64 => exact ⟨"win", by decide⟩
  obtain ⟨front, same⟩ := ends
  rw [List.append_assoc _ host.key, same, ← List.append_assoc]
  obtain ⟨start, name, plain⟩ := Path.exists_name_of_end dir _ "64.spkg" (by decide)
    (show (0x36 : CodePoint) ∈ _ by decide) (by decide)
  rw [name]
  exact ⟨plain, start, rfl⟩

variable {name mark : Text}

theorem IsArchiveName.front_of_point (h : IsArchiveName name) (front : Text) (none : point ∉ mark)
    (same : name = front ++ point :: mark) : ∃ start, front = start ++ "64" := by
  obtain ⟨start, form⟩ := h.ends
  have both : front ++ point :: mark = (start ++ "64") ++ point :: "spkg" := by
    rw [← same, form, List.append_assoc]
    rfl
  exact ⟨start, Text.eq_of_append_cons both none (by decide)⟩

/-- An archive is not named like a staging directory. -/
theorem IsArchiveName.ne_stage (h : IsArchiveName name) (none : point ∉ mark) :
    name ≠ stagingStart ++ mark := by
  intro same
  have plain : point ∉ ("simpack-stage-" ++ mark : Text) := by
    rw [List.mem_append, not_or]
    exact ⟨by decide, none⟩
  obtain ⟨start, nothing⟩ := h.front_of_point [] plain (by rw [same]; rfl)
  exact absurd (congrArg List.length nothing) (by
    have two : ("64" : Text).length = 2 := by decide
    rw [List.length_append, two]
    simp)

/-- An archive is not named like a file beside another one. -/
theorem IsArchiveName.ne_temporary (h : IsArchiveName name) (none : point ∉ mark) (other : Text) :
    name ≠ other ++ ".tmp." ++ mark := by
  intro same
  obtain ⟨start, front⟩ := h.front_of_point (other ++ ".tmp") none (by
    rw [same, List.append_assoc, List.append_assoc]
    rfl)
  have last := congrArg List.getLast? front
  have first : ("64" : Text) ≠ [] := by decide
  have second : (".tmp" : Text) ≠ [] := by decide
  rw [List.getLast?_append_of_ne_nil _ second, List.getLast?_append_of_ne_nil _ first] at last
  exact absurd last (by decide)

end Archive

end ModulePackaging
