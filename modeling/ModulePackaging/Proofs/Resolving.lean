import ModulePackaging.Descriptor.Resolve
import ModulePackaging.Proofs.Descriptors
import ModulePackaging.Proofs.Pieces

/-!
# Resolved descriptors

Resolving trims the fields, fills in defaults and checks the outcome, so that what comes out should
need nothing of it again. It does not for one field: the namespace of the build id takes the name of
the package when it is missing or empty, but it is trimmed only after that, and a namespace of blanks
alone is resolved to the empty one.

Main statement (`resolve_settles`): a resolved descriptor whose namespace is not empty passes for
resolved, is resolved to itself in either mode and is read back from its object. One with an empty
namespace is refused for that field by the check and by the reader and gets the name when it is
resolved again; and such a descriptor comes from a namespace of blanks and from nothing else.
-/

namespace ModulePackaging

/-! ## The fields of a descriptor as a draft -/

namespace Descriptor

variable {d : Descriptor} {field : Field}

/-- The members of the object of a descriptor. -/
def members (d : Descriptor) : Members := Field.all.map fun field => (field.key, d.value field)

theorem toJson_eq (d : Descriptor) : d.toJson = .obj d.members := rfl

theorem keys_members (d : Descriptor) : d.members.keys = Field.all.map Field.key := by
  rw [Members.keys, members, List.map_map]
  rfl

theorem get?_members (d : Descriptor) (field : Field) :
    d.members.get? field.key = some (d.value field) := by
  apply (Json.get?_eq_some_iff (nodup_keys_toJson d.value)).mpr
  exact List.mem_map.mpr ⟨field, field.mem_all, rfl⟩

/-- A text in a field stands as it is unless it is empty. -/
theorem text_draft {t : Text} {default : Option Text} (form : d.value field = .str t)
    (present : t ≠ []) : d.draft.text field default = .ok t := by
  unfold Draft.text
  rw [draft_value, form]
  simp [present]

/-- An empty text stands for the default. -/
theorem text_draft_empty {t : Text} (form : d.value field = .str []) :
    d.draft.text field (some t) = .ok t := by
  unfold Draft.text
  rw [draft_value, form]
  simp

theorem numericId_draft (positive : 0 < d.numericId) : d.draft.numericId = .ok d.numericId := by
  unfold Draft.numericId
  rw [draft_value, value]
  refine bind_eq_ok.mpr ⟨d.numericId, rfl, ?_⟩
  rw [if_neg (by omega)]
  rfl

theorem confidentiality_draft (d : Descriptor) :
    d.draft.confidentiality = .ok d.confidentiality := by
  have named : Confidentiality.ofText? d.confidentiality.name = some d.confidentiality := by
    cases d.confidentiality <;> decide
  simp only [Draft.confidentiality, draft, value, named]

/-- What is in form is not empty where a package must have a text. -/
theorem IsChecked.name_ne_nil (h : d.IsChecked) : d.name ≠ [] := by
  intro empty
  have named := h.name
  rw [empty] at named
  exact absurd named (by decide)

theorem IsChecked.version_ne_nil (h : d.IsChecked) : d.version ≠ [] := by
  intro empty
  obtain ⟨v, parsed⟩ := h.version
  rw [empty] at parsed
  exact absurd parsed (by simp [Version.parse, show Version.parts? (Text.trimmed []) = none by decide])

theorem IsChecked.hostTriple_ne_nil (h : d.IsChecked) : d.hostTriple ≠ [] := by
  intro empty
  obtain ⟨host, known⟩ := h.hostTriple
  rw [empty] at known
  exact absurd known (by simp [Host.ofTriple, show Host.tripleParts [] = [] by decide])

/-- The descriptor with the name of the package for an empty namespace. -/
def withNamespace (d : Descriptor) : Descriptor :=
  { d with buildIdNamespace := if d.buildIdNamespace = [] then d.name else d.buildIdNamespace }

theorem withNamespace_of_ne (present : d.buildIdNamespace ≠ []) : d.withNamespace = d := by
  simp [withNamespace, present]

theorem withNamespace_of_eq (empty : d.buildIdNamespace = []) :
    d.withNamespace = { d with buildIdNamespace := d.name } := by
  simp [withNamespace, empty]

end Descriptor

/-! ## Checking what has passed the check -/

namespace Draft

variable {draft : Draft} {d : Descriptor} {field : Field} {default : Option Text} {t : Text}

theorem TrimsTo.trimmed (h : draft.TrimsTo field default t) : t.trimmed = t := by
  obtain ⟨raw, _, rfl⟩ := h
  exact raw.trimmed_trimmed

/-- A trimmed text in a field fills it again, unless it is empty. -/
theorem TrimsTo.again {other : Option Text} (h : draft.TrimsTo field default t)
    (form : d.value field = .str t) (present : t ≠ []) : d.draft.TrimsTo field other t :=
  ⟨t, Descriptor.text_draft form present, h.trimmed⟩

/-- The text of a field is the default for it, or stands there and is not empty. -/
theorem text_cases {u : Text} (h : draft.text field (some t) = .ok u) :
    u = t ∨ (draft.value field = .str u ∧ u ≠ []) := by
  unfold text at h
  cases stored : draft.value field with
  | null =>
      rw [stored] at h
      exact .inl (Except.ok.inj h).symm
  | str v =>
      rw [stored] at h
      by_cases empty : v = []
      · simp only [empty, List.isEmpty_nil, if_true] at h
        exact .inl (Except.ok.inj h).symm
      · simp only [List.isEmpty_iff, empty, if_false] at h
        obtain rfl := Except.ok.inj h
        exact .inr ⟨rfl, empty⟩
  | _ =>
      rw [stored] at h
      exact absurd h (by simp)

theorem text_ne_nil {u : Text} (h : draft.text field (some t) = .ok u) (default : t ≠ []) :
    u ≠ [] := by
  rcases text_cases h with rfl | ⟨_, present⟩
  · exact default
  · exact present

/-- A descriptor that a check has given is filled by itself, but for an empty namespace. -/
theorem Fills.again (fills : draft.Fills d) (checked : d.IsChecked) :
    d.draft.Fills d.withNamespace where
  name := fills.name.again rfl checked.name_ne_nil
  numericId := Descriptor.numericId_draft checked.numericId
  version := fills.version.again rfl checked.version_ne_nil
  buildId := by
    -- an empty build id is its own default
    by_cases empty : d.buildId = []
    · refine ⟨[], Descriptor.text_draft_empty (congrArg Json.str empty), ?_⟩
      exact (show Text.trimmed [] = [] by decide).trans empty.symm
    · exact fills.buildId.again rfl empty
  buildIdNamespace := by
    by_cases empty : d.buildIdNamespace = []
    · rw [Descriptor.withNamespace_of_eq empty]
      exact ⟨d.name, Descriptor.text_draft_empty (congrArg Json.str empty), fills.name.trimmed⟩
    · rw [Descriptor.withNamespace_of_ne empty]
      exact fills.buildIdNamespace.again rfl empty
  confidentiality := d.confidentiality_draft
  hostTriple := fills.hostTriple.again rfl checked.hostTriple_ne_nil
  docTitle := Descriptor.text_draft rfl (text_ne_nil fills.docTitle checked.name_ne_nil)
  description := by
    by_cases empty : d.description = []
    · refine Eq.trans ?_ (congrArg Except.ok empty.symm)
      exact Descriptor.text_draft_empty (congrArg Json.str empty)
    · exact Descriptor.text_draft rfl empty

/-- A descriptor that a check has given passes it again, with its name for an empty namespace. -/
theorem check_draft (h : draft.check = .ok d) : d.draft.check = .ok d.withNamespace := by
  obtain ⟨fills, checked⟩ := check_eq_ok_iff.mp h
  exact check_eq_ok_iff.mpr ⟨fills.again checked, ⟨checked.name, checked.numericId, checked.version,
    checked.buildId, checked.hostTriple⟩⟩

/-- The namespace comes out empty exactly from a text of blanks. -/
theorem namespace_eq_nil_iff (h : draft.check = .ok d) :
    d.buildIdNamespace = [] ↔ ∃ t : Text, draft.value .buildIdNamespace = .str t ∧ t ≠ [] ∧
      ∀ c ∈ t, c.isBlank = true := by
  obtain ⟨fills, checked⟩ := check_eq_ok_iff.mp h
  obtain ⟨raw, filled, form⟩ := fills.buildIdNamespace
  constructor
  · intro empty
    rcases text_cases filled with rfl | ⟨stored, present⟩
    · -- the default is the name, which is trimmed to itself and not to nothing
      exact absurd (fills.name.trimmed.symm.trans (form.trans empty)) checked.name_ne_nil
    · exact ⟨raw, stored, present, Text.trimmed_eq_nil_iff.mp (form.trans empty)⟩
  · rintro ⟨t, stored, some, blank⟩
    have same : raw = t := by
      unfold text at filled
      rw [stored] at filled
      simpa [some] using filled.symm
    rw [← form, same]
    exact Text.trimmed_eq_nil_iff.mpr blank

end Draft

namespace Descriptor

variable {d : Descriptor}

/-- An empty namespace is the first field in which a draft differs from what it amounts to. -/
theorem firstDifference?_withNamespace (named : d.name ≠ []) (empty : d.buildIdNamespace = []) :
    d.draft.firstDifference? { d with buildIdNamespace := d.name } = some .buildIdNamespace := by
  have text (t : Text) : (Json.str t).equalsText t = true := beq_self_eq_true t
  have differs : (Json.str []).equalsText d.name = false := by
    simpa [Json.equalsText] using named.symm
  simp [Draft.firstDifference?, Field.all, List.find?, agreesAt, value, text, differs, empty,
    Json.equalsInt_self]

end Descriptor

/-! ## Resolving again -/

namespace Metadata

variable {base overrides : Members} {strict : Bool} {d : Descriptor}

/-- What the metadata and the overrides put into the fields. -/
def merged (base overrides : Members) (strict : Bool) : Except ResolveError Draft := do
  override strict (← fill strict .empty base) (Json.Style.inKeyOrder overrides)

theorem resolve_eq_ok : resolve base overrides strict = .ok d ↔
    ∃ draft, merged base overrides strict = .ok draft ∧ draft.check = .ok d := by
  unfold resolve merged
  simp only [bind_eq_ok, mapError_eq_ok]
  constructor
  · rintro ⟨first, filled, draft, overridden, checked⟩
    exact ⟨draft, ⟨first, filled, overridden⟩, checked⟩
  · rintro ⟨draft, ⟨first, filled, overridden⟩, checked⟩
    exact ⟨first, filled, draft, overridden, checked⟩

theorem field?_key (field : Field) : field? field.key = some field := by
  cases field <;> decide

/-- Metadata that holds fields under their own keys fills these fields and leaves the others. -/
theorem fill_fields (value : Field → Json) (fields : List Field) (draft : Draft) :
    fill strict draft (fields.map fun field => (field.key, value field)) =
      .ok ⟨fun field => if field ∈ fields then some (value field) else draft.value? field⟩ := by
  induction fields generalizing draft with
  | nil => simp [fill]
  | cons first rest ih =>
      rw [List.map_cons, fill]
      simp only [field?_key, ih, Draft.set]
      congr 2
      funext field
      by_cases later : field ∈ rest
      · simp [later]
      · by_cases same : field = first
        · simp [same]
        · simp [later, same]

/-- The members of a descriptor fill the draft of it, in either mode. -/
theorem merged_members (d : Descriptor) (strict : Bool) : merged d.members [] strict = .ok d.draft := by
  refine bind_eq_ok.mpr ⟨_, fill_fields d.value Field.all .empty, ?_⟩
  simp only [Field.mem_all, if_true]
  rfl

/-- What is resolved passes for resolved, is resolved to itself and is read back, if its namespace
is not empty; else the namespace is refused and resolving again puts the name there. The namespace
is empty exactly if one of blanks was given. -/
theorem resolve_settles (h : resolve base overrides strict = .ok d) :
    (d.buildIdNamespace ≠ [] →
      d.draft.checkResolved = .ok d ∧
      (∀ mode, resolve d.members [] mode = .ok d) ∧
      Descriptor.ofJson d.toJson = .ok d) ∧
    (d.buildIdNamespace = [] →
      d.draft.checkResolved = .error (.notResolved .buildIdNamespace) ∧
      (∀ mode, resolve d.members [] mode = .ok { d with buildIdNamespace := d.name }) ∧
      Descriptor.ofJson d.toJson = .error (.notCanonical .buildIdNamespace)) ∧
    (d.buildIdNamespace = [] ↔ ∃ draft, merged base overrides strict = .ok draft ∧
      ∃ t : Text, draft.value .buildIdNamespace = .str t ∧ t ≠ [] ∧ ∀ c ∈ t, c.isBlank = true) := by
  obtain ⟨draft, given, checked⟩ := resolve_eq_ok.mp h
  have again := Draft.check_draft checked
  have known : ∀ key ∈ d.members.keys, ∃ field : Field, field.key = key := by
    intro key member
    rw [d.keys_members] at member
    obtain ⟨field, _, form⟩ := List.mem_map.mp member
    exact ⟨field, form⟩
  refine ⟨?_, ?_, ?_⟩
  · intro present
    rw [Descriptor.withNamespace_of_ne present] at again
    refine ⟨?_, fun mode => resolve_eq_ok.mpr ⟨d.draft, merged_members d mode, again⟩, ?_⟩
    · rw [Draft.checkResolved_of_check again, d.firstDifference?_draft]
    · rw [d.toJson_eq, Descriptor.ofJson, Descriptor.ofMembers_of_check again known d.get?_members,
        d.firstDifference?_draft]
  · intro empty
    rw [Descriptor.withNamespace_of_eq empty] at again
    have named := (Draft.check_eq_ok checked).2.name_ne_nil
    have differs := Descriptor.firstDifference?_withNamespace named empty
    refine ⟨?_, fun mode => resolve_eq_ok.mpr ⟨d.draft, merged_members d mode, again⟩, ?_⟩
    · rw [Draft.checkResolved_of_check again, differs]
    · rw [d.toJson_eq, Descriptor.ofJson, Descriptor.ofMembers_of_check again known d.get?_members,
        differs]
  · rw [Draft.namespace_eq_nil_iff checked]
    constructor
    · rintro ⟨t, stored⟩
      exact ⟨draft, given, t, stored⟩
    · rintro ⟨other, same, t, stored⟩
      obtain rfl := Except.ok.inj (given.symm.trans same)
      exact ⟨t, stored⟩

end Metadata

namespace Sample

open Metadata

/-- Metadata with aliases, blanks and a number in a text, and with some namespace. -/
def namespaceMetadata (buildIdNamespace : Text) : Members := [
  ("name", .str " demo "), ("package_number", .str " 1001"), ("version", .str "1.0.0-rc.1 "),
  ("host", .str "x86_64-unknown-linux-gnu"), ("confidentiality", .str " RESTRICTED"),
  ("build_id_namespace", .str buildIdNamespace)]

/-- What the metadata is resolved to. -/
def resolvedWith (buildIdNamespace : Text) : Descriptor :=
  ⟨"demo", 1001, "1.0.0-rc.1", "", buildIdNamespace, .restricted, "x86_64-unknown-linux-gnu", " ",
    ""⟩

/-- Overrides of the title by a blank and of something that is not meant for packages. -/
def titleOverrides : Members := [("SIMPACK_PACKAGE_DOC_TITLE", .str " "), ("PATH", .str "/bin")]

set_option maxRecDepth 100000 in
/-- Metadata whose namespace has blanks around it is resolved once and for all. -/
theorem resolve_settles_metadata :
    resolve (namespaceMetadata " tools ") titleOverrides true = .ok (resolvedWith "tools") ∧
    (resolvedWith "tools").draft.checkResolved = .ok (resolvedWith "tools") ∧
    (∀ mode, resolve (resolvedWith "tools").members [] mode = .ok (resolvedWith "tools")) ∧
    Descriptor.ofJson (resolvedWith "tools").toJson = .ok (resolvedWith "tools") := by
  have given : resolve (namespaceMetadata " tools ") titleOverrides true = .ok (resolvedWith "tools") := by rfl
  obtain ⟨settled, _, _⟩ := resolve_settles given
  exact ⟨given, settled (by decide)⟩

set_option maxRecDepth 100000 in
/-- Metadata whose namespace is a blank is resolved to a descriptor that is refused as unresolved,
resolved to another one and not read back. -/
theorem blank_not_settled :
    resolve (namespaceMetadata " ") [] true = .ok { resolvedWith "" with docTitle := "demo" } ∧
    ({ resolvedWith "" with docTitle := "demo" } : Descriptor).draft.checkResolved =
      .error (.notResolved .buildIdNamespace) ∧
    resolve ({ resolvedWith "" with docTitle := "demo" } : Descriptor).members [] true =
      .ok { resolvedWith "demo" with docTitle := "demo" } ∧
    Descriptor.ofJson ({ resolvedWith "" with docTitle := "demo" } : Descriptor).toJson =
      .error (.notCanonical .buildIdNamespace) := by
  refine ⟨?_, ?_, ?_, ?_⟩ <;> rfl

end Sample

end ModulePackaging
