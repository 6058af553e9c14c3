import ModulePackaging.Proofs.Resolving

/-!
# Stored descriptors

A descriptor is checked twice: before it is signed, field by field against what its draft amounts to,
and when it is read from a manifest, against the object that holds it. The two checks are written
apart, one on values and one on an object, and they must let the same descriptors through.

Main statement (`stored_iff_resolved`): a descriptor passes for resolved exactly if it is read from
its object, and is itself in both cases; an object is read exactly if it has the members of such a
descriptor, in any order, and then the bytes that are signed for it are those of the object.
-/

namespace ModulePackaging

namespace Draft

variable {draft : Draft} {d : Descriptor}

/-- A draft passes for resolved when it passes the check and agrees with the outcome. -/
theorem checkResolved_eq_ok_iff :
    draft.checkResolved = .ok d ↔ draft.check = .ok d ∧ draft.firstDifference? d = none := by
  constructor
  · intro h
    obtain ⟨same, checked⟩ := eq_of_checkResolved h
    refine ⟨checked, ?_⟩
    rw [same]
    exact d.firstDifference?_draft
  · rintro ⟨checked, agrees⟩
    rw [checkResolved_of_check checked, agrees]

end Draft

namespace Descriptor

variable {members : Members} {d : Descriptor}

/-- Nothing is left of a selection that sorts to nothing. -/
private theorem filter_eq_nil_of_sorted {keys : List Text} {test : Text → Bool}
    (h : ¬ (!(Text.sorted (keys.filter test)).isEmpty) = true) :
    ∀ key ∈ keys, test key = false := by
  have none : Text.sorted (keys.filter test) = [] := by simpa using h
  have length : (Text.sorted (keys.filter test)).length = (keys.filter test).length :=
    length_sortedBy _
  have empty : keys.filter test = [] := by
    apply List.eq_nil_of_length_eq_zero
    rw [← length]
    exact congrArg List.length none
  intro key member
  simpa using List.filter_eq_nil_iff.mp empty key member

/-- What is read from members: they have keys of fields only, all of them, and the draft that they
make is the one of the descriptor. -/
theorem ofMembers_eq_ok (h : ofMembers members = .ok d) :
    (∀ key ∈ members.keys, ∃ field : Field, field.key = key) ∧
    (∀ field : Field, members.get? field.key = some (d.value field)) ∧
    d.draft.checkResolved = .ok d := by
  unfold ofMembers at h
  obtain ⟨unknown, h⟩ := guard_eq_ok.mp h
  obtain ⟨_, h⟩ := guard_eq_ok.mp h
  obtain ⟨_, h⟩ := guard_eq_ok.mp h
  obtain ⟨e, checked, h⟩ := bind_eq_ok.mp h
  have resolved : (Draft.ofMembers members).checkResolved = .ok d := by
    apply Draft.checkResolved_eq_ok_iff.mpr
    split at h
    · exact absurd h throw_ne_ok
    · rename_i agrees
      obtain rfl := Except.ok.inj h
      exact ⟨mapError_eq_ok.mp checked, agrees⟩
  obtain ⟨same, _⟩ := Draft.eq_of_checkResolved resolved
  refine ⟨?_, ?_, same ▸ resolved⟩
  · intro key member
    have found := filter_eq_nil_of_sorted unknown key member
    obtain ⟨field, found⟩ := Option.isSome_iff_exists.mp (by simpa using found)
    exact ⟨field, by simpa using List.find?_some found⟩
  · intro field
    have value := congrArg (fun draft : Draft => draft.value? field) same
    exact value

/-- Members with keys of fields only, all of them, are those of the descriptor. -/
theorem perm_members (distinct : (members.map Prod.fst).Nodup)
    (known : ∀ key ∈ members.keys, ∃ field : Field, field.key = key)
    (found : ∀ field : Field, members.get? field.key = some (d.value field)) :
    members.Perm d.members := by
  refine (List.perm_ext_iff_of_nodup (distinct.of_map _) ((nodup_keys_toJson d.value).of_map _)).mpr ?_
  rintro ⟨key, value⟩
  rw [← Json.get?_eq_some_iff distinct, ← Json.get?_eq_some_iff (nodup_keys_toJson d.value)]
  constructor
  · intro stored
    have member := (Json.get?_eq_some_iff distinct).mp stored
    obtain ⟨field, rfl⟩ := known key (List.mem_map.mpr ⟨_, member, rfl⟩)
    rw [found field] at stored
    exact (d.get?_members field).trans stored
  · intro stored
    have member := (Json.get?_eq_some_iff (nodup_keys_toJson d.value)).mp stored
    obtain ⟨field, _, same⟩ := List.mem_map.mp member
    obtain ⟨rfl, rfl⟩ := Prod.mk.inj same
    exact found field

/-- Members in any order are read as the descriptor whose members they are, if that passes for
resolved, and as nothing else. -/
theorem ofMembers_eq_ok_iff (distinct : (members.map Prod.fst).Nodup) :
    ofMembers members = .ok d ↔ members.Perm d.members ∧ d.draft.checkResolved = .ok d := by
  constructor
  · intro read
    obtain ⟨known, found, resolved⟩ := ofMembers_eq_ok read
    exact ⟨perm_members distinct known found, resolved⟩
  · rintro ⟨same, resolved⟩
    have found : ∀ field : Field, members.get? field.key = some (d.value field) := by
      intro field
      rw [Json.get?_eq_of_perm same distinct, d.get?_members]
    have known : ∀ key ∈ members.keys, ∃ field : Field, field.key = key := by
      intro key member
      rw [Members.keys, (same.map Prod.fst).mem_iff, ← Members.keys, d.keys_members] at member
      obtain ⟨field, _, form⟩ := List.mem_map.mp member
      exact ⟨field, form⟩
    obtain ⟨checked, agrees⟩ := Draft.checkResolved_eq_ok_iff.mp resolved
    rw [ofMembers_of_check checked known found, agrees]

/-- An object is stored alike in whatever order it has its members. -/
theorem storedBytes_of_perm {others : Members} (same : members.Perm others)
    (distinct : (members.map Prod.fst).Nodup) :
    (Json.obj members).storedBytes = (Json.obj others).storedBytes := by
  have written : (Json.obj members).canonicalText = (Json.obj others).canonicalText := by
    rw [Json.canonicalText, Json.canonicalText, Json.Style.write_obj, Json.Style.write_obj,
      Json.Style.inKeyOrder, sortedByKey_eq_of_perm Prod.fst same distinct, Json.Style.inKeyOrder]
  have long : (Json.obj members).holdsLong = (Json.obj others).holdsLong := by
    rw [Json.holdsLong_obj, Json.holdsLong_obj]
    exact same.any_eq
  rw [Json.storedBytes, Json.storedBytes, Json.canonicalBytes, Json.canonicalBytes, written, long]

/-- The check before signing and the one on reading agree: each lets a descriptor through if the
other does, as it is. An object that is read has the members of the descriptor and nothing else, and
the bytes that its digest covers are those of the object as it stands. -/
theorem stored_iff_resolved :
    (∀ d e : Descriptor, d.draft.checkResolved = .ok e ↔ ofJson d.toJson = .ok e) ∧
    (∀ d e : Descriptor, ofJson d.toJson = .ok e → e = d) ∧
    ∀ (members : Members) (d : Descriptor), (members.map Prod.fst).Nodup →
      (ofJson (.obj members) = .ok d ↔
        members.Perm d.members ∧ d.draft.checkResolved = .ok d) ∧
      (ofJson (.obj members) = .ok d →
        d.draft.canonicalBytes = (Json.obj members).storedBytes) := by
  have own {d e : Descriptor} (read : ofJson d.toJson = .ok e) : e = d := by
    obtain ⟨_, found, _⟩ := ofMembers_eq_ok (show ofMembers d.members = .ok e from read)
    apply eq_of_value_eq
    intro field
    exact Option.some.inj ((found field).symm.trans (d.get?_members field))
  have self (d : Descriptor) : ofJson d.toJson = .ok d ↔ d.draft.checkResolved = .ok d := by
    have exactly : ofMembers d.members = .ok d ↔ _ := ofMembers_eq_ok_iff (nodup_keys_toJson d.value)
    exact exactly.trans (and_iff_right (List.Perm.refl _))
  refine ⟨?_, fun d e => own, ?_⟩
  · intro d e
    constructor
    · intro resolved
      obtain rfl := eq_of_draft_eq (Draft.eq_of_checkResolved resolved).1
      exact (self d).mpr resolved
    · intro read
      obtain rfl := own read
      exact (self e).mp read
  · intro members d distinct
    refine ⟨ofMembers_eq_ok_iff distinct, ?_⟩
    intro read
    obtain ⟨same, _⟩ := (ofMembers_eq_ok_iff distinct).mp read
    rw [d.draft_canonicalBytes, d.toJson_eq, storedBytes_of_perm same distinct]

end Descriptor

namespace Sample

/-- The members of a descriptor, turned around. -/
def turnedMembers : Members := (resolvedWith "tools").members.reverse

set_option maxRecDepth 100000 in
/-- An object with its members turned around is read as the descriptor and covered as it stands. -/
theorem stored_iff_resolved_turned :
    Descriptor.ofJson (.obj turnedMembers) = .ok (resolvedWith "tools") ∧
    (resolvedWith "tools").draft.checkResolved = .ok (resolvedWith "tools") ∧
    (resolvedWith "tools").draft.canonicalBytes = (Json.obj turnedMembers).storedBytes := by
  obtain ⟨_, _, object⟩ := Descriptor.stored_iff_resolved
  obtain ⟨members, bytes⟩ := object turnedMembers (resolvedWith "tools") (by decide)
  have read : Descriptor.ofJson (.obj turnedMembers) = .ok (resolvedWith "tools") := by rfl
  exact ⟨read, (members.mp read).2, bytes read⟩

end Sample

end ModulePackaging
