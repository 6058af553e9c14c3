import ModulePackaging.Descriptor.Stored
import ModulePackaging.Proofs.Json.Encodable

/-!
# Descriptors as objects

The object of a descriptor has the nine fields under their keys, so it determines the descriptor, and
a manifest that holds it gives the descriptor back. A draft that passes for resolved is the draft of
the descriptor that it passes for.
-/

namespace ModulePackaging

/-! ## Fields -/

namespace Field

theorem mem_all (field : Field) : field ∈ all := by cases field <;> decide

theorem nodup_keys : (all.map key).Nodup := by decide

theorem ofKey?_key (field : Field) : ofKey? field.key = some field := by
  cases field <;> decide

/-- The fields in the order of their keys. -/
def byKey : List Field := [
  .buildId, .buildIdNamespace, .confidentiality, .description, .docTitle, .hostTriple, .name,
  .numericId, .version]

theorem inKeyOrder_all (value : Field → Json) :
    Json.Style.inKeyOrder (all.map fun field => (field.key, value field)) =
      byKey.map fun field => (field.key, value field) := by
  have ordered : sortedBy (fun f g : Field => decide (f.key ≤ g.key)) all = byKey := by decide
  unfold Json.Style.inKeyOrder
  rw [sortedBy_map, ordered]

end Field

theorem Confidentiality.ofName?_name (level : Confidentiality) :
    ofName? (.str level.name) = some level := by
  cases level <;> decide

theorem Field.isEncodable_key (field : Field) : field.key.IsEncodable := by
  cases field <;> exact Text.isEncodable_ofString _

theorem Confidentiality.isEncodable_name (level : Confidentiality) : level.name.IsEncodable := by
  cases level <;> exact Text.isEncodable_ofString _

/-! ## The object of a descriptor -/

namespace Descriptor

variable {d : Descriptor}

@[simp] theorem draft_value (d : Descriptor) (field : Field) : d.draft.value field = d.value field :=
  rfl

theorem draft_toJson (d : Descriptor) : d.draft.toJson = .ok d.toJson := by
  unfold Draft.toJson
  rw [draft_value, value, Confidentiality.ofName?_name]
  rfl

/-- The values of all fields determine a descriptor. -/
theorem eq_of_value_eq {d e : Descriptor} (h : ∀ field, d.value field = e.value field) : d = e := by
  cases d
  cases e
  have h₁ := h .name
  have h₂ := h .numericId
  have h₃ := h .version
  have h₄ := h .buildId
  have h₅ := h .buildIdNamespace
  have h₆ := h .confidentiality
  have h₇ := h .hostTriple
  have h₈ := h .docTitle
  have h₉ := h .description
  simp only [value, Json.str.injEq, Json.int.injEq] at h₁ h₂ h₃ h₄ h₅ h₆ h₇ h₈ h₉
  have level := (Confidentiality.ofName?_name _).symm.trans
    ((congrArg (fun t => Confidentiality.ofName? (.str t)) h₆).trans
      (Confidentiality.ofName?_name _))
  injection level with level
  subst h₁ h₂ h₃ h₄ h₅ level h₇ h₈ h₉
  rfl

/-- The draft of a descriptor determines it. -/
theorem eq_of_draft_eq {d e : Descriptor} (h : d.draft = e.draft) : d = e :=
  eq_of_value_eq fun field => by
    rw [← draft_value, h, draft_value]

/-- What a field holds is a text, or the numeric id. -/
theorem value_cases (d : Descriptor) (field : Field) :
    (∃ t, d.value field = .str t) ∨ (field = .numericId ∧ d.value field = .int d.numericId) := by
  cases field <;> simp [value]

@[simp] theorem inOrder_value (d : Descriptor) (field : Field) :
    (d.value field).inOrder = d.value field := by
  rcases d.value_cases field with ⟨t, form⟩ | ⟨_, form⟩ <;> rw [form, Json.inOrder]

theorem nodup_keys_toJson (value : Field → Json) :
    ((Field.all.map fun field => (field.key, value field)).map Prod.fst).Nodup := by
  rw [List.map_map]
  exact Field.nodup_keys

/-- The object of a descriptor in order. -/
theorem toJson_inOrder (d : Descriptor) :
    d.toJson.inOrder = .obj (Field.byKey.map fun field => (field.key, d.value field)) := by
  rw [toJson, Json.inOrder, Json.membersInOrder_eq, List.map_map]
  have same : ((fun m : Text × Json => (m.1, m.2.inOrder)) ∘
      fun field : Field => (field.key, d.value field)) = fun field => (field.key, d.value field) := by
    funext field
    simp
  rw [same, Field.inKeyOrder_all]

/-- A key is looked up in the object of a descriptor with the value of its field. -/
theorem get?_byKey (value : Field → Json) (field : Field) :
    Members.get? field.key (Field.byKey.map fun f => (f.key, value f)) = some (value field) := by
  have distinct : ((Field.byKey.map fun f => (f.key, value f)).map Prod.fst).Nodup := by
    rw [List.map_map]
    show (Field.byKey.map Field.key).Nodup
    decide
  rw [Json.get?_eq_some_iff distinct, List.mem_map]
  exact ⟨field, by cases field <;> decide, rfl⟩

/-- The object in order determines the descriptor. -/
theorem eq_of_inOrder_eq {d e : Descriptor} (h : d.toJson.inOrder = e.toJson.inOrder) : d = e := by
  rw [toJson_inOrder, toJson_inOrder, Json.obj.injEq] at h
  apply eq_of_value_eq
  intro field
  have found := (get?_byKey d.value field).symm.trans (h ▸ get?_byKey e.value field)
  simpa using found

/-- The object of a descriptor can be stored if its numeric id can be written. -/
theorem storable_toJson (short : Decimal.isLong d.numericId = false) (depth : Nat) :
    Json.Storable (depth + 1) d.toJson := by
  apply Json.Storable.obj (nodup_keys_toJson d.value)
  intro m member
  obtain ⟨field, _, rfl⟩ := List.mem_map.mp member
  rcases d.value_cases field with ⟨t, form⟩ | ⟨_, form⟩
  · rw [form]
    exact .str t
  · rw [form]
    exact .int short

theorem holdsLong_toJson (d : Descriptor) : d.toJson.holdsLong = Decimal.isLong d.numericId := by
  simp only [toJson, Json.holdsLong_obj, Field.all, List.map_cons, List.map_nil, List.any_cons,
    List.any_nil, value, Json.holdsLong_str, Json.holdsLong_int, Bool.false_or, Bool.or_false]

/-- A descriptor that has canonical bytes: no surrogate in its texts, and a numeric id of no more
digits than can be written. -/
structure IsWritable (d : Descriptor) : Prop where
  name : d.name.IsEncodable
  version : d.version.IsEncodable
  buildId : d.buildId.IsEncodable
  buildIdNamespace : d.buildIdNamespace.IsEncodable
  hostTriple : d.hostTriple.IsEncodable
  docTitle : d.docTitle.IsEncodable
  description : d.description.IsEncodable
  numericId : Decimal.isLong d.numericId = false

/-- The canonical bytes of a descriptor are those of its object. -/
theorem draft_canonicalBytes (d : Descriptor) : d.draft.canonicalBytes = d.toJson.storedBytes := by
  rw [Draft.canonicalBytes, draft_toJson]
  rfl

/-- Exactly the writable descriptors have canonical bytes. -/
theorem isWritable_iff {d : Descriptor} :
    d.IsWritable ↔ ∃ bytes, d.draft.canonicalBytes = .ok bytes := by
  simp only [draft_canonicalBytes, Json.storedBytes_eq_ok, exists_and_left, holdsLong_toJson,
    Utf8.encode_eq_ok, exists_eq, and_true, Json.canonicalText]
  rw [toJson, Json.Style.isEncodable_write_obj, List.forall_mem_map]
  simp only [Field.isEncodable_key, true_and, Field.all, List.forall_mem_cons, value, Json.Style.isEncodable_write_str,
    Json.Style.isEncodable_write_int, Confidentiality.isEncodable_name, List.not_mem_nil,
    false_implies, implies_true, and_true]
  constructor
  · rintro ⟨name, version, buildId, buildIdNamespace, hostTriple, docTitle, description, numericId⟩
    exact ⟨numericId, name, version, buildId, buildIdNamespace, hostTriple, docTitle, description⟩
  · rintro ⟨numericId, name, version, buildId, buildIdNamespace, hostTriple, docTitle, description⟩
    exact ⟨name, version, buildId, buildIdNamespace, hostTriple, docTitle, description, numericId⟩

end Descriptor

/-! ## Drafts that pass -/

/-- A value that counts as a text is that text. -/
theorem Json.eq_str_of_equalsText {v : Json} {t : Text} (h : v.equalsText t = true) :
    v = .str t := by
  cases v with
  | str u => simpa [equalsText] using h
  | _ => exact absurd h (by simp [equalsText])

/-- A package name has only letters, digits and two signs in it. -/
theorem isNamePoint_of_mem {t : Text} (h : isPackageName t = true) :
    ∀ c ∈ t, (c.isAsciiLower || c.isAsciiDigit || c = '_' || c = '-') = true := by
  cases t with
  | nil => exact List.forall_mem_nil _
  | cons d rest =>
      rw [isPackageName, Bool.and_eq_true, List.all_eq_true] at h
      refine List.forall_mem_cons.mpr ⟨?_, h.2⟩
      simp [Bool.or_eq_true_iff.mp h.1]

/-- What a check makes sure of: each field of the descriptor is in its form. -/
structure Descriptor.IsChecked (d : Descriptor) : Prop where
  name : isPackageName d.name = true
  numericId : 0 < d.numericId
  version : ∃ v, Version.parse d.version = .ok v
  buildId : isBuildId d.buildId = true
  hostTriple : ∃ host, Host.ofTriple d.hostTriple = .ok host

namespace Draft

variable {draft : Draft} {d : Descriptor}

theorem numericId_pos {n : Int} (h : draft.numericId = .ok n) : 0 < n := by
  unfold numericId at h
  split at h
  · exact absurd h (by simp)
  · obtain ⟨m, _, h⟩ := bind_eq_ok.mp h
    split at h
    · exact absurd h throw_ne_ok
    · rename_i positive
      obtain rfl := Except.ok.inj h
      omega

/-- A field of a draft, or the default for it, is trimmed to a text. -/
def TrimsTo (draft : Draft) (field : Field) (default : Option Text) (t : Text) : Prop :=
  ∃ raw, draft.text field default = .ok raw ∧ raw.trimmed = t

/-- What a draft has in each field of a descriptor, the defaults filled in. -/
structure Fills (draft : Draft) (d : Descriptor) : Prop where
  name : draft.TrimsTo .name none d.name
  numericId : draft.numericId = .ok d.numericId
  version : draft.TrimsTo .version none d.version
  buildId : draft.TrimsTo .buildId (some []) d.buildId
  buildIdNamespace : draft.TrimsTo .buildIdNamespace (some d.name) d.buildIdNamespace
  confidentiality : draft.confidentiality = .ok d.confidentiality
  hostTriple : draft.TrimsTo .hostTriple none d.hostTriple
  docTitle : draft.text .docTitle (some d.name) = .ok d.docTitle
  description : draft.text .description (some []) = .ok d.description

/-- A draft passes the check with the descriptor that it fills if that is in form. -/
theorem check_eq_ok_iff : draft.check = .ok d ↔ draft.Fills d ∧ d.IsChecked := by
  constructor
  · intro h
    unfold check at h
    obtain ⟨name, nameFilled, h⟩ := bind_eq_ok.mp h
    obtain ⟨named, h⟩ := guard_eq_ok.mp h
    obtain ⟨numericId, number, h⟩ := bind_eq_ok.mp h
    obtain ⟨version, versionFilled, h⟩ := bind_eq_ok.mp h
    obtain ⟨v, parsed, h⟩ := bind_eq_ok.mp h
    obtain ⟨buildId, buildIdFilled, h⟩ := bind_eq_ok.mp h
    obtain ⟨built, h⟩ := guard_eq_ok.mp h
    obtain ⟨buildIdNamespace, namespaceFilled, h⟩ := bind_eq_ok.mp h
    obtain ⟨confidentiality, level, h⟩ := bind_eq_ok.mp h
    obtain ⟨hostTriple, hostFilled, h⟩ := bind_eq_ok.mp h
    obtain ⟨host, known, h⟩ := bind_eq_ok.mp h
    obtain ⟨docTitle, titled, h⟩ := bind_eq_ok.mp h
    obtain ⟨description, described, h⟩ := bind_eq_ok.mp h
    obtain rfl := Except.ok.inj h
    exact ⟨⟨⟨name, nameFilled, rfl⟩, number, ⟨version, versionFilled, rfl⟩,
        ⟨buildId, buildIdFilled, rfl⟩, ⟨buildIdNamespace, namespaceFilled, rfl⟩, level,
        ⟨hostTriple, hostFilled, rfl⟩, titled, described⟩,
      ⟨by simpa using named, numericId_pos number, ⟨v, mapError_eq_ok.mp parsed⟩,
        by simpa using built, ⟨host, mapError_eq_ok.mp known⟩⟩⟩
  · rintro ⟨⟨⟨name, nameFilled, nameForm⟩, number, ⟨version, versionFilled, versionForm⟩,
        ⟨buildId, buildIdFilled, buildIdForm⟩, ⟨buildIdNamespace, namespaceFilled, namespaceForm⟩,
        level, ⟨hostTriple, hostFilled, hostForm⟩, titled, described⟩,
      ⟨named, _, ⟨v, parsed⟩, built, ⟨host, known⟩⟩⟩
    unfold check
    refine bind_eq_ok.mpr ⟨name, nameFilled, ?_⟩
    simp only [nameForm]
    refine guard_eq_ok.mpr ⟨by simpa using named, bind_eq_ok.mpr ⟨d.numericId, number, ?_⟩⟩
    refine bind_eq_ok.mpr ⟨version, versionFilled, ?_⟩
    simp only [versionForm]
    refine bind_eq_ok.mpr ⟨v, mapError_eq_ok.mpr parsed, bind_eq_ok.mpr ⟨buildId, buildIdFilled, ?_⟩⟩
    simp only [buildIdForm]
    refine guard_eq_ok.mpr ⟨by simpa using built, bind_eq_ok.mpr ⟨_, namespaceFilled, ?_⟩⟩
    refine bind_eq_ok.mpr ⟨d.confidentiality, level, bind_eq_ok.mpr ⟨hostTriple, hostFilled, ?_⟩⟩
    simp only [hostForm]
    refine bind_eq_ok.mpr ⟨host, mapError_eq_ok.mpr known, bind_eq_ok.mpr ⟨d.docTitle, titled, ?_⟩⟩
    refine bind_eq_ok.mpr ⟨d.description, described, ?_⟩
    rw [namespaceForm]
    rfl

/-- A draft that passes the check has the numeric id of its descriptor, and that is in form. -/
theorem check_eq_ok (h : draft.check = .ok d) :
    draft.numericId = .ok d.numericId ∧ d.IsChecked := by
  obtain ⟨fills, checked⟩ := check_eq_ok_iff.mp h
  exact ⟨fills.numericId, checked⟩

/-- A draft that passes the check is compared with the descriptor that it amounts to. -/
theorem checkResolved_of_check (h : draft.check = .ok d) :
    draft.checkResolved =
      match draft.firstDifference? d with
      | some field => .error (.notResolved field)
      | none => .ok d := by
  unfold checkResolved
  rw [h]
  rfl

/-- A field that agrees with a text holds the text. -/
theorem eq_of_equalsText {v : Option Json} {t : Text}
    (h : (v.getD .null).equalsText t = true) : v = some (.str t) := by
  cases v with
  | none => exact absurd h (by simp [Json.equalsText])
  | some v => rw [← Json.eq_str_of_equalsText h, Option.getD_some]

/-- A draft with a numeric id that agrees with it holds that whole number. -/
theorem eq_of_equalsInt {n : Int} (number : draft.numericId = .ok n)
    (h : (draft.value .numericId).equalsInt n = true) :
    draft.value? .numericId = some (.int n) := by
  unfold numericId at number
  unfold value at number h
  cases stored : draft.value? .numericId with
  | none => simp [stored] at number
  | some v =>
      rw [stored, Option.getD_some] at number h
      cases v with
      | int m =>
          simp only [numericIdOf] at number
          obtain ⟨_, same, number⟩ := bind_eq_ok.mp number
          obtain rfl := Except.ok.inj same
          split at number
          · exact absurd number throw_ne_ok
          · obtain rfl := Except.ok.inj number
            rfl
      | str t => exact absurd h (by simp [Json.equalsInt, Json.place?])
      | null => exact absurd number (by simp)
      | _ => simp [numericIdOf, bind, Except.bind] at number

/-- A draft that passes for resolved is the draft of the descriptor that it passes for. -/
theorem eq_of_checkResolved (h : draft.checkResolved = .ok d) :
    draft = d.draft ∧ draft.check = .ok d := by
  obtain ⟨e, checked, _⟩ := bind_eq_ok.mp h
  rw [checkResolved_of_check checked] at h
  split at h
  · exact absurd h (by simp)
  · rename_i agrees
    obtain rfl := Except.ok.inj h
    refine ⟨?_, checked⟩
    have all : ∀ field, e.agreesAt field (draft.value field) = true := by
      intro field
      have passed := List.find?_eq_none.mp agrees field (Field.mem_all field)
      simpa using passed
    have each : ∀ field, draft.value? field = some (e.value field) := by
      intro field
      have same := all field
      unfold Descriptor.agreesAt at same
      rcases e.value_cases field with ⟨t, form⟩ | ⟨rfl, form⟩
      · rw [form] at same ⊢
        exact eq_of_equalsText same
      · rw [form] at same ⊢
        exact eq_of_equalsInt (check_eq_ok checked).1 same
    cases draft
    rw [Descriptor.draft]
    congr 1
    funext field
    exact each field

end Draft

/-- A whole number agrees with itself. -/
theorem Json.equalsInt_self (n : Int) : (Json.int n).equalsInt n = true := by
  simp [equalsInt, place?, Binary64.Place.compare]

namespace Descriptor

variable {d : Descriptor}

theorem firstDifference?_draft (d : Descriptor) : d.draft.firstDifference? d = none := by
  rw [Draft.firstDifference?, List.find?_eq_none]
  intro field _
  have agrees : d.agreesAt field (d.value field) = true := by
    unfold agreesAt
    rcases d.value_cases field with ⟨t, form⟩ | ⟨_, form⟩
    · rw [form]
      exact beq_self_eq_true t
    · rw [form]
      exact Json.equalsInt_self _
  simp [agrees]

/-- Members that hold the fields of a descriptor and nothing else are compared with what the draft
of the descriptor amounts to. -/
theorem ofMembers_of_check {members : Members} {e : Descriptor} (h : d.draft.check = .ok e)
    (known : ∀ key ∈ members.keys, ∃ field : Field, field.key = key)
    (found : ∀ field : Field, members.get? field.key = some (d.value field)) :
    ofMembers members =
      match d.draft.firstDifference? e with
      | some field => .error (.notCanonical field)
      | none => .ok e := by
  have same : Draft.ofMembers members = d.draft := by
    unfold Draft.ofMembers draft
    simp only [found]
  have unknown : (members.keys.filter fun key => (Field.ofKey? key).isNone) = [] := by
    rw [List.filter_eq_nil_iff]
    intro key member
    obtain ⟨field, rfl⟩ := known key member
    simp [Field.ofKey?_key]
  have missing : ((Field.all.map Field.key).filter fun key => (members.get? key).isNone) = [] := by
    rw [List.filter_eq_nil_iff]
    intro key member
    obtain ⟨field, _, rfl⟩ := List.mem_map.mp member
    simp [found]
  have number : isInteger (d.draft.value .numericId) = true := rfl
  have sorted : Text.sorted [] = [] := by decide
  unfold ofMembers
  simp only [unknown, missing, same, number, sorted, h]
  rfl

/-- A checked descriptor is read back from its object. -/
theorem ofJson_inOrder (h : d.draft.check = .ok d) : ofJson d.toJson.inOrder = .ok d := by
  have known : ∀ key ∈ Members.keys (Field.byKey.map fun field => (field.key, d.value field)),
      ∃ field : Field, field.key = key := by
    intro key member
    rw [Members.keys, List.map_map] at member
    obtain ⟨field, _, rfl⟩ := List.mem_map.mp member
    exact ⟨field, rfl⟩
  rw [toJson_inOrder, ofJson, ofMembers_of_check h known (get?_byKey d.value),
    firstDifference?_draft]

end Descriptor

end ModulePackaging
