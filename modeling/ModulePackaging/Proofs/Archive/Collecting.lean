import ModulePackaging.Proofs.Archive.Layout
import ModulePackaging.Proofs.Archive.Manifest
import ModulePackaging.Proofs.Zip.RoundTrip

/-!
# Collecting listed members

An archive lists its module and its resources in the order of their paths. The reader goes through
the list, takes what is at the path of the module for the module and the rest for resources, and so
ends with what was laid out; it stops only at a path that no member is found by.
-/

namespace ModulePackaging.Archive

/-! ## Parts of an archive -/

/-- A member of an archive other than the manifest, and whether it is the module. -/
structure Part where
  name : Text
  content : Bytes
  isModule : Bool

namespace Part

/-- The part that holds the module. -/
def module (path : Text) (artifact : Bytes) : Part := ⟨path, artifact, true⟩

/-- The part that holds a resource. -/
def resource (r : Resource) : Part := ⟨Layout.resourcePath r.path, r.data, false⟩

/-- A part as it is listed. -/
def listed (p : Part) : ListedMember := .of p.name p.content p.isModule

/-- A part as a member of the container. -/
def member (p : Part) : Zip.Member := ⟨p.name, p.content⟩

/-- A part as the resource that the reader takes it for. -/
def asResource (p : Part) : Resource := ⟨p.name.drop Layout.resourcesStart.length, p.content⟩

theorem asResource_resource (r : Resource) : (resource r).asResource = r := by
  show (⟨(Layout.resourcesStart ++ r.path).drop Layout.resourcesStart.length, r.data⟩ :
    Resource) = r
  rw [List.drop_left]

end Part

/-- The parts of an archive. -/
def partsOf (path : Text) (artifact : Bytes) (resources : List Resource) : List Part :=
  .module path artifact :: resources.map Part.resource

/-- Parts in the order of their names. -/
def inNameOrder (parts : List Part) : List Part :=
  sortedBy (fun a b => decide (a.name ≤ b.name)) parts

variable {path : Text} {artifact : Bytes} {resources : List Resource}

theorem listing_eq : listing path artifact resources =
    (partsOf path artifact resources).map Part.listed := by
  rw [listing, partsOf, List.map_cons, List.map_map]
  rfl

/-- The listing of an archive lists its parts in the order of their names. -/
theorem inPathOrder_listing : inPathOrder (listing path artifact resources) =
    (inNameOrder (partsOf path artifact resources)).map Part.listed := by
  rw [listing_eq, inPathOrder, sortedBy_map]
  rfl

/-- A stored manifest lists the parts in the order of their names. -/
theorem valueAt_listing {d : Descriptor} {block : SignatureBlock} {hostApi : Option ApiEntry} :
    valueAt (storedFields d (listing path artifact resources) block hostApi) "resources" =
      .arr ((inNameOrder (partsOf path artifact resources)).map
        fun p => p.listed.toJson.inOrder) := by
  rw [valueAt_storedFields (.tail _ (.tail _ (.tail _ (.tail _ (.head _))))), Json.inOrder,
    Json.itemsInOrder_eq, inPathOrder_listing, List.map_map, List.map_map]
  rfl

theorem names_partsOf : (partsOf path artifact resources).map Part.name =
    path :: resources.map fun r => Layout.resourcePath r.path := by
  rw [partsOf, List.map_cons, List.map_map]
  rfl

/-! ## One part after the other -/

section Collect

variable {container : Zip.Container} {parts : List Part}

/-- What the reader has after the parts: all of them listed, and the module apart from the
resources. -/
def Collected.after (c : Collected) (path : Text) (parts : List Part) : Collected :=
  ⟨c.listed ++ parts.map Part.name,
    ((parts.filter fun p => p.name = path).getLast?.map Part.content).or c.artifact,
    c.resources ++ (parts.filter fun p => p.name ≠ path).map Part.asResource⟩

theorem Collected.add_part {c : Collected} {p : Part}
    (inside : p.name = path ∨ p.name.startsWith Layout.resourcesStart = true) :
    c.add path p.name p.content = .ok (c.after path [p]) := by
  unfold add after
  by_cases isModule : p.name = path
  · simp [isModule]
  · simp [isModule, inside.resolve_left isModule, Part.asResource]

theorem Collected.after_cons (c : Collected) (p : Part) (rest : List Part) :
    (c.after path [p]).after path rest = c.after path (p :: rest) := by
  unfold after
  by_cases isModule : p.name = path
  · have module : decide (p.name = path) = true := by simpa using isModule
    have other : decide (p.name ≠ path) = false := by simpa using isModule
    simp only [List.filter_cons, List.filter_nil, module, other, if_true, Bool.false_eq_true,
      if_false, List.getLast?_cons]
    generalize (rest.filter fun q => decide (q.name = path)).getLast? = last
    cases last <;> simp
  · simp [isModule]

/-- Listed parts that are all found are collected. -/
theorem collect_listed (found : ∀ p ∈ parts, container.read? p.name = some (.ok p.content))
    (inside : ∀ p ∈ parts, p.name = path ∨ p.name.startsWith Layout.resourcesStart = true)
    (c : Collected) :
    collect container path c (parts.map fun p => p.listed.toJson.inOrder) =
      .ok (c.after path parts) := by
  induction parts generalizing c with
  | nil =>
      show Except.ok c = .ok (c.after path [])
      simp [Collected.after]
  | cons p rest ih =>
      obtain ⟨foundFirst, foundRest⟩ := List.forall_mem_cons.mp found
      obtain ⟨insideFirst, insideRest⟩ := List.forall_mem_cons.mp inside
      have content : listedContent container p.listed.toJson.inOrder = .ok (p.name, p.content) :=
        listedContent_inOrder foundFirst p.isModule
      rw [List.map_cons, collect, content]
      simp only [bind, Except.bind, Collected.add_part insideFirst]
      rw [ih foundRest insideRest, Collected.after_cons]

/-- A listed part that is not found ends the reading, whatever its place. -/
theorem collect_missing
    (found : ∀ p ∈ parts, container.read? p.name = some (.ok p.content) ∨
      container.read? p.name = none)
    (inside : ∀ p ∈ parts, p.name = path ∨ p.name.startsWith Layout.resourcesStart = true)
    (missing : ∃ p ∈ parts, container.read? p.name = none) (c : Collected) :
    ∃ name, collect container path c (parts.map fun p => p.listed.toJson.inOrder) =
      refuse (.memberMissing name) := by
  induction parts generalizing c with
  | nil =>
      obtain ⟨p, member, _⟩ := missing
      exact absurd member List.not_mem_nil
  | cons p rest ih =>
      obtain ⟨foundFirst, foundRest⟩ := List.forall_mem_cons.mp found
      obtain ⟨insideFirst, insideRest⟩ := List.forall_mem_cons.mp inside
      rw [List.map_cons, collect]
      rcases foundFirst with present | absent
      · have content : listedContent container p.listed.toJson.inOrder =
            .ok (p.name, p.content) := listedContent_inOrder present p.isModule
        have later : ∃ q ∈ rest, container.read? q.name = none := by
          obtain ⟨q, member, absent⟩ := missing
          rcases List.mem_cons.mp member with rfl | member
          · rw [present] at absent
            exact absurd absent (by simp)
          · exact ⟨q, member, absent⟩
        rw [content]
        simp only [bind, Except.bind, Collected.add_part insideFirst]
        exact ih foundRest insideRest later _
      · have content : listedContent container p.listed.toJson.inOrder =
            refuse (.memberMissing p.name) := listedContent_missing absent p.content p.isModule
        rw [content]
        exact ⟨p.name, rfl⟩

end Collect

/-! ## What is collected -/

theorem resourcePath_ne (other : path.startsWith Layout.resourcesStart = false) (t : Text) :
    Layout.resourcePath t ≠ path := by
  rintro rfl
  rw [Layout.startsWith_resourcePath] at other
  exact absurd other (by simp)

/-- The module is the one part with its name. -/
theorem filter_module (other : path.startsWith Layout.resourcesStart = false) :
    (inNameOrder (partsOf path artifact resources)).filter (fun p => p.name = path) =
      [.module path artifact] := by
  have none : (resources.map Part.resource).filter (fun p => p.name = path) = [] := by
    rw [List.filter_eq_nil_iff, List.forall_mem_map]
    intro r _
    rw [decide_eq_true_eq]
    exact resourcePath_ne other r.path
  have same := (sortedBy_perm (fun a b : Part => decide (a.name ≤ b.name))
    (partsOf path artifact resources)).filter fun p => decide (p.name = path)
  rw [partsOf, List.filter_cons_of_pos (by simp [Part.module]), none] at same
  exact List.perm_singleton.mp same

/-- All parts but the module are resources, in some order. -/
theorem filter_resources (artifact : Bytes) (resources : List Resource)
    (other : path.startsWith Layout.resourcesStart = false) :
    ((inNameOrder (partsOf path artifact resources)).filter fun p => p.name ≠ path).Perm
      (resources.map Part.resource) := by
  have all : (resources.map Part.resource).filter (fun p => p.name ≠ path) =
      resources.map Part.resource := by
    rw [List.filter_eq_self, List.forall_mem_map]
    intro r _
    rw [decide_eq_true_eq]
    exact resourcePath_ne other r.path
  have same := (sortedBy_perm (fun a b : Part => decide (a.name ≤ b.name))
    (partsOf path artifact resources)).filter fun p => decide (p.name ≠ path)
  rwa [partsOf, List.filter_cons_of_neg (by simp [Part.module]), all] at same

/-- All parts of an archive, in the order of their names, are collected as its module and its
resources. -/
theorem collected_partsOf (distinct : ((partsOf path artifact resources).map Part.name).Nodup)
    (other : path.startsWith Layout.resourcesStart = false) :
    let c := Collected.nothing.after path (inNameOrder (partsOf path artifact resources))
    c.listed.Perm (path :: resources.map fun r => Layout.resourcePath r.path) ∧
      c.artifact = some artifact ∧ Resource.sorted c.resources = Resource.sorted resources := by
  refine ⟨?_, ?_, ?_⟩
  · rw [← names_partsOf]
    exact (sortedBy_perm _ _).map Part.name
  · simp only [Collected.after, filter_module other]
    rfl
  · have same := (filter_resources artifact resources other).map Part.asResource
    have back : (resources.map Part.resource).map Part.asResource = resources := by
      rw [List.map_map]
      exact List.map_id'' Part.asResource_resource resources
    rw [back] at same
    apply sortedByKey_eq_of_perm Resource.path same
    rw [(same.map Resource.path).nodup_iff]
    rw [names_partsOf] at distinct
    have paths : ((resources.map Resource.path).map Layout.resourcePath).Nodup := by
      rw [List.map_map]
      exact (List.nodup_cons.mp distinct).2
    exact List.Nodup.of_map _ paths

end ModulePackaging.Archive
