import ModulePackaging.Proofs.Archive.Accepted

/-!
# The entries of an archive

What reading takes from a container. The directory of the container, the listing in the manifest and
the entries of the archive are three collections of names. The first has no name twice and the
reader compares it with the second as sets, so that each member other than the manifest is taken
with what it holds, the module for the module and the rest for resources. The listing itself is
never searched for repetitions, and the entries repeat a resource as often as it is listed.

Main statement (`readFrom_entries`): the entries are exactly the members but the manifest, with their
contents; their names are the module's and, as often as they are listed, those of the resources.
-/

namespace ModulePackaging

namespace Archive

variable {archive : Archive} {container : Zip.Container} {module name : Text} {data : Bytes}
  {c c' : Collected}

/-! ## What is collected is what the members hold -/

/-- The module and the resources that are collected are what the members of their names hold. -/
structure Collected.Holds (c : Collected) (container : Zip.Container) (module : Text) : Prop where
  artifact : ∀ data, c.artifact = some data → container.read? module = some (.ok data)
  resources : ∀ r ∈ c.resources,
    container.read? (Layout.resourcePath r.path) = some (.ok r.data)

/-- A member that is added is taken with what it holds. -/
theorem Collected.Holds.add (h : c.Holds container module)
    (found : container.read? name = some (.ok data)) (added : c.add module name data = .ok c') :
    c'.Holds container module := by
  unfold Collected.add at added
  split at added
  · rename_i isModule
    obtain rfl := Except.ok.inj added
    refine ⟨?_, h.resources⟩
    intro taken same
    obtain rfl := Option.some.inj same
    rw [← isModule]
    exact found
  · split at added
    · rename_i resource
      obtain rfl := Except.ok.inj added
      refine ⟨h.artifact, ?_⟩
      intro r member
      rcases List.mem_append.mp member with before | last
      · exact h.resources r before
      · obtain rfl := List.mem_singleton.mp last
        obtain ⟨path, rfl⟩ := List.isPrefixOf_iff_prefix.mp resource
        rw [Layout.resourcePath, List.drop_left]
        exact found
    · exact absurd added refuse_ne_ok

theorem Collected.listed_of_add (added : c.add module name data = .ok c') :
    c'.listed = c.listed ++ [name] := by
  unfold Collected.add at added
  split at added
  · obtain rfl := Except.ok.inj added
    rfl
  · split at added
    · obtain rfl := Except.ok.inj added
      rfl
    · exact absurd added refuse_ne_ok

/-- The name that an entry of a listing lists. -/
def listedName? : Json → Option Text
  | .obj members => (valueAt members "path").text?
  | _ => none

/-- A whole listing is collected with what the members hold, name by name. -/
theorem Collected.Holds.collect {entries : List Json} (h : c.Holds container module)
    (collected : Archive.collect container module c entries = .ok c') :
    c'.Holds container module ∧ c'.listed = c.listed ++ entries.filterMap listedName? := by
  induction entries generalizing c with
  | nil =>
      obtain rfl := Except.ok.inj collected
      exact ⟨h, by simp⟩
  | cons entry rest ih =>
      rw [Archive.collect] at collected
      obtain ⟨⟨name, data⟩, content, onward⟩ := bind_eq_ok.mp collected
      obtain ⟨next, added, others⟩ := bind_eq_ok.mp onward
      obtain ⟨members, rfl, path, _, _, found⟩ := listedContent_eq_ok content
      obtain ⟨holds, names⟩ := ih (h.add found added) others
      have listed : listedName? (.obj members) = some name := by
        rw [listedName?, path]
        rfl
      have one : next.listed = c.listed ++ [name] := Collected.listed_of_add added
      refine ⟨holds, ?_⟩
      rw [names, one, List.filterMap_cons_some listed, List.append_assoc, List.singleton_append]

/-! ## The entries -/

/-- The entries of an archive before they are put in order: the module and then the resources. -/
def entriesAt (archive : Archive) (module : Text) : List Zip.Member :=
  ⟨module, archive.artifact⟩ ::
    archive.resources.map fun r => ⟨Layout.resourcePath r.path, r.data⟩

theorem exists_members (archive : Archive) (h : archive.modulePath = .ok module) :
    ∃ entries, archive.members = .ok entries ∧ entries.Perm (archive.entriesAt module) := by
  refine ⟨_, ?_, sortedBy_perm (fun a b : Zip.Member => decide (a.name ≤ b.name)) _⟩
  rw [members, h]
  rfl

theorem names_entriesAt (archive : Archive) (module : Text) :
    (archive.entriesAt module).map Zip.Member.name =
      module :: archive.resources.map fun r => Layout.resourcePath r.path := by
  rw [entriesAt, List.map_cons, List.map_map]
  rfl

section IsRead

variable {members : Members} {d : Descriptor} {listing : List Json}

/-- What is collected in reading is what the members hold, and the names are those of the
listing. -/
theorem IsRead.holds (read : IsRead container archive members d listing module c) :
    c.Holds container module ∧ c.listed = listing.filterMap listedName? := by
  have start : Collected.nothing.Holds container module :=
    ⟨fun _ none => absurd none (by simp [Collected.nothing]), List.forall_mem_nil _⟩
  exact start.collect read.collected

/-- A resource of an archive is one that was collected. -/
theorem IsRead.mem_resources (read : IsRead container archive members d listing module c)
    {r : Resource} : r ∈ archive.resources ↔ r ∈ c.resources := by
  rw [read.resources]
  exact mem_sortedBy

/-- The resources are the members below their directory, with what those hold. -/
theorem IsRead.resource_iff (read : IsRead container archive members d listing module c)
    {path : Text} : (⟨path, data⟩ : Resource) ∈ archive.resources ↔
      container.read? (Layout.resourcePath path) = some (.ok data) := by
  obtain ⟨holds, _⟩ := read.holds
  constructor
  · intro member
    exact holds.resources ⟨path, data⟩ (read.mem_resources.mp member)
  · intro found
    obtain ⟨r, member, rfl⟩ := read.isAccepted.mem_resources.mp (mem_names_of_read found)
    have same := found.symm.trans (holds.resources r (read.mem_resources.mp member))
    obtain rfl := Except.ok.inj (Option.some.inj same)
    exact member

/-- The entries are the members but the manifest, with what those hold. -/
theorem IsRead.entry_iff (read : IsRead container archive members d listing module c) :
    (⟨name, data⟩ : Zip.Member) ∈ archive.entriesAt module ↔
      name ≠ Layout.manifestPath ∧ container.read? name = some (.ok data) := by
  have accepted := read.isAccepted
  have held := read.holds.1.artifact _ read.artifact
  rw [entriesAt, List.mem_cons, List.mem_map, Zip.Member.mk.injEq]
  constructor
  · rintro (⟨rfl, rfl⟩ | ⟨⟨path, content⟩, member, same⟩)
    · exact ⟨accepted.manifest, held⟩
    · obtain ⟨rfl, rfl⟩ := Zip.Member.mk.inj same
      exact ⟨Layout.resourcePath_ne_manifestPath path, read.resource_iff.mp member⟩
  · rintro ⟨other, found⟩
    rcases mem_paths.mp ((accepted.members name).mp (mem_names_of_read found)) with
      manifest | rfl | ⟨r, member, rfl⟩
    · exact absurd manifest other
    · exact .inl ⟨rfl, Except.ok.inj (Option.some.inj (found.symm.trans held))⟩
    · exact .inr ⟨⟨r.path, data⟩, read.resource_iff.mpr found, rfl⟩

/-- The names of the entries are the module's and those of the resources as they are listed. -/
theorem IsRead.names_perm (read : IsRead container archive members d listing module c) :
    ((archive.entriesAt module).map Zip.Member.name).Perm
      (module :: (listing.filterMap listedName?).filter (· ≠ module)) := by
  rw [names_entriesAt, ← read.holds.2, ← read.fits.resources, read.resources]
  exact ((sortedBy_perm _ c.resources).map _).cons module

end IsRead

end Archive

namespace Sample

open Archive

/-- A package whose manifest lists the resources at some paths, in a container that has those at
others. -/
def relisted (listed held : List Text) : Except Fault Bytes := do
  (unchecked held (← (uncheckedManifest listed).storedBytes)).toBytes

end Sample

end ModulePackaging
