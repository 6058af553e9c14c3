import ModulePackaging.Proofs.KeyOrder

/-!
# Overrides in both modes

What an environment holds beside the overrides never counts. The lenient mode passes over it, so it
may as well be left out; the strict mode passes over what is not meant for this program, and refuses
what is meant for it and is no override. So the modes differ in what they refuse, and in nothing
else.

Main statement (`resolve_modes`): the overrides alone, and in the strict mode all that is meant for
this program, end like the whole environment; the strict mode ends well where the lenient one does
and all keys are known; and an override ends like metadata that hold its value in the field itself.
-/

namespace ModulePackaging

namespace Override

variable {key : Text} {field : Field}

theorem field?_eq_some_iff : field? key = some field ↔ key = Override.key field := by
  constructor
  · intro h
    have found : (Field.all.find? fun f => Override.key f == key) = some field := h
    have found := List.find?_some found
    exact (beq_iff_eq.mp found).symm
  · rintro rfl
    cases field <;> decide

/-- Overrides are meant for this program. -/
theorem startsWith_of_field? (h : field? key = some field) : key.startsWith start = true := by
  rw [field?_eq_some_iff.mp h]
  cases field <;> decide

end Override

namespace Metadata

variable {base base' overrides overrides' environment : Members} {strict : Bool}
  {field : Field} {key : Text} {value : Json} {d : Descriptor}

theorem field?_eq_some_iff :
    field? key = some field ↔ key = field.key ∨ (field, key) ∈ aliases := by
  refine ⟨key_of_field?, ?_⟩
  rintro (rfl | other)
  · exact field?_key field
  · simp only [aliases, List.mem_cons, Prod.mk.injEq, List.not_mem_nil, or_false] at other
    rcases other with ⟨rfl, rfl⟩ | ⟨rfl, rfl⟩ <;> decide

/-! ## What settles the outcome -/

/-- Whether a key of metadata is refused. -/
def refusesField (strict : Bool) (key : Text) : Bool := (field? key).isNone && strict

/-- Whether a key of an environment is refused. -/
def refusesOverride (strict : Bool) (key : Text) : Bool :=
  (Override.field? key).isNone && (strict && key.startsWith Override.start)

/-- Merging ends at the first member that is refused, or else with what overrides give a field last,
or else the metadata. -/
theorem merged_eq (base overrides : Members) (strict : Bool) : merged base overrides strict =
    match base.keys.find? (refusesField strict) with
    | some key => .error (.unknownField key)
    | none =>
      match (Members.keys (Json.Style.inKeyOrder overrides)).find? (refusesOverride strict) with
      | some key => .error (.unknownOverride key)
      | none => .ok ⟨fun field =>
          (lastGiven? Override.field? field (Json.Style.inKeyOrder overrides)).or
            (lastGiven? field? field base)⟩ := by
  have fills : fill strict .empty base = match base.keys.find? (refusesField strict) with
      | some key => .error (.unknownField key)
      | none => .ok ⟨fun field => (lastGiven? field? field base).or none⟩ :=
    loop_eq field? (fun _ => strict) .unknownField (fun _ => rfl) (fun _ _ _ _ => rfl) base
  have overridden (draft : Draft) : override strict draft (Json.Style.inKeyOrder overrides) =
      match (Members.keys (Json.Style.inKeyOrder overrides)).find? (refusesOverride strict) with
      | some key => .error (.unknownOverride key)
      | none => .ok ⟨fun field => (lastGiven? Override.field? field
          (Json.Style.inKeyOrder overrides)).or (draft.value? field)⟩ :=
    loop_eq Override.field? (fun key => strict && key.startsWith Override.start) .unknownOverride
      (fun _ => rfl) (fun _ _ _ _ => rfl) _
  unfold merged
  rw [fills]
  cases base.keys.find? (refusesField strict) with
  | some key => rfl
  | none =>
      refine (overridden _).trans ?_
      simp only [Option.or_none]

theorem resolve_eq (base overrides : Members) (strict : Bool) : resolve base overrides strict =
    merged base overrides strict >>= fun draft => draft.check.mapError .draft := by
  unfold resolve merged
  rw [bind_assoc]

/-- Metadata and overrides end alike if the first members that are refused have the same keys and
the fields are given the same. -/
theorem resolve_eq_of_settled
    (known : base.keys.find? (refusesField strict) = base'.keys.find? (refusesField strict))
    (meant : (Members.keys (Json.Style.inKeyOrder overrides)).find? (refusesOverride strict) =
      (Members.keys (Json.Style.inKeyOrder overrides')).find? (refusesOverride strict))
    (given : ∀ field, (lastGiven? Override.field? field (Json.Style.inKeyOrder overrides)).or
        (lastGiven? field? field base) =
      (lastGiven? Override.field? field (Json.Style.inKeyOrder overrides')).or
        (lastGiven? field? field base')) :
    resolve base overrides strict = resolve base' overrides' strict := by
  have same : merged base overrides strict = merged base' overrides' strict := by
    rw [merged_eq, merged_eq, known, meant, funext given]
  rw [resolve_eq, resolve_eq, same]

/-! ## Members that are left out -/

section LeftOut

variable {members : Members} {kept : Text × Json → Bool}

theorem inKeyOrder_filter (members : Members) (kept : Text × Json → Bool) :
    Json.Style.inKeyOrder (members.filter kept) = (Json.Style.inKeyOrder members).filter kept :=
  sortedBy_filter (keyOrder_total Prod.fst) (keyOrder_trans Prod.fst) kept members

/-- The first key that is refused is the same if no refused one is left out. -/
theorem find?_keys_filter {refused : Text → Bool}
    (all : ∀ m ∈ members, refused m.1 = true → kept m = true) :
    (Members.keys (members.filter kept)).find? refused = members.keys.find? refused := by
  induction members with
  | nil => rfl
  | cons m rest ih =>
      obtain ⟨first, others⟩ := List.forall_mem_cons.mp all
      have keys (rest : Members) : Members.keys (m :: rest) = m.1 :: Members.keys rest := rfl
      cases here : kept m with
      | true => rw [List.filter_cons_of_pos here, keys, keys, List.find?_cons, List.find?_cons,
          ih others]
      | false =>
          have passes : refused m.1 = false := by
            rw [Bool.eq_false_iff]
            exact fun refuses => absurd (first refuses) (by simp [here])
          rw [List.filter_cons_of_neg (by simp [here]), ih others, keys, List.find?_cons, passes]

/-- A field is given the same if no member for it is left out. -/
theorem lastGiven?_filter {named : Text → Option Field}
    (all : ∀ m ∈ members, named m.1 = some field → kept m = true) :
    lastGiven? named field (members.filter kept) = lastGiven? named field members := by
  induction members with
  | nil => rfl
  | cons m rest ih =>
      obtain ⟨first, others⟩ := List.forall_mem_cons.mp all
      cases here : kept m with
      | true => rw [List.filter_cons_of_pos here, lastGiven?, lastGiven?, ih others]
      | false =>
          have apart : named m.1 ≠ some field := fun names =>
            absurd (first names) (by simp [here])
          rw [List.filter_cons_of_neg (by simp [here]), ih others, lastGiven?, if_neg apart,
            Option.or_none]

/-- Something in an environment that is no override and is not refused may be left out. -/
theorem resolve_filter
    (recognised : ∀ m ∈ environment, ∀ field, Override.field? m.1 = some field → kept m = true)
    (refused : ∀ m ∈ environment, refusesOverride strict m.1 = true → kept m = true) :
    resolve base (environment.filter kept) strict = resolve base environment strict := by
  apply resolve_eq_of_settled rfl
  · rw [inKeyOrder_filter]
    exact find?_keys_filter fun m member => refused m (Json.Style.mem_inKeyOrder.mp member)
  · intro field
    rw [inKeyOrder_filter, lastGiven?_filter fun m member names =>
      recognised m (Json.Style.mem_inKeyOrder.mp member) field names]

end LeftOut

theorem resolve_collect (base environment : Members) :
    resolve base (Override.collect environment) false = resolve base environment false := by
  apply resolve_filter
  · intro m _ field names
    simp [names]
  · intro m _ refuses
    exact absurd refuses (by simp [refusesOverride])

theorem resolve_collectAll (base environment : Members) :
    resolve base (Override.collectAll environment) true = resolve base environment true := by
  apply resolve_filter
  · exact fun m _ field names => Override.startsWith_of_field? names
  · intro m _ refuses
    simp only [refusesOverride, Bool.and_eq_true] at refuses
    exact refuses.2.2

/-! ## The strict mode -/

theorem mem_keys_inKeyOrder :
    key ∈ Members.keys (Json.Style.inKeyOrder environment) ↔ key ∈ environment.keys :=
  ((sortedBy_perm _ environment).map Prod.fst).mem_iff

/-- The strict mode ends well where the lenient one does and there is nothing that it refuses. -/
theorem resolve_strict_iff : resolve base environment true = .ok d ↔
    resolve base environment false = .ok d ∧
    (∀ key ∈ base.keys, ∃ field : Field, key = field.key ∨ (field, key) ∈ aliases) ∧
    ∀ key ∈ environment.keys, key.startsWith Override.start = true →
      ∃ field, key = Override.key field := by
  constructor
  · intro h
    obtain ⟨draft, given, checked⟩ := resolve_eq_ok.mp h
    obtain ⟨known, meant, form⟩ := merged_eq_ok.mp given
    have lenient : merged base environment false = .ok draft :=
      merged_eq_ok.mpr ⟨by simp, by simp, form⟩
    refine ⟨resolve_eq_ok.mpr ⟨draft, lenient, checked⟩, ?_, ?_⟩
    · intro key member
      obtain ⟨field, names⟩ := Option.ne_none_iff_exists'.mp fun none =>
        absurd (known key member none) (by simp)
      exact ⟨field, field?_eq_some_iff.mp names⟩
    · intro key member starts
      obtain ⟨field, names⟩ := Option.ne_none_iff_exists'.mp fun none =>
        absurd (meant key (mem_keys_inKeyOrder.mpr member) none) (by simp [starts])
      exact ⟨field, Override.field?_eq_some_iff.mp names⟩
  · rintro ⟨h, known, meant⟩
    obtain ⟨draft, given, checked⟩ := resolve_eq_ok.mp h
    obtain ⟨_, _, form⟩ := merged_eq_ok.mp given
    refine resolve_eq_ok.mpr ⟨draft, merged_eq_ok.mpr ⟨?_, ?_, form⟩, checked⟩
    · intro key member none
      obtain ⟨field, names⟩ := known key member
      exact absurd (field?_eq_some_iff.mpr names) (by simp [none])
    · intro key member none
      rw [Bool.true_and, Bool.eq_false_iff]
      intro starts
      obtain ⟨field, names⟩ := meant key (mem_keys_inKeyOrder.mp member) starts
      exact absurd (Override.field?_eq_some_iff.mpr names) (by simp [none])

/-! ## Fields that are overridden -/

/-- A field whose members are all left out is given nothing. -/
theorem lastGiven?_eq_none {named : Text → Option Field} {members : Members}
    (none : ∀ m ∈ members, named m.1 ≠ some field) : lastGiven? named field members = .none := by
  rw [Option.eq_none_iff_forall_ne_some]
  intro v given
  obtain ⟨key, member, names⟩ := exists_of_lastGiven? given
  exact none _ member names

/-- In an environment there is one value for a field. -/
theorem lastGiven?_override (distinct : (environment.map Prod.fst).Nodup)
    (given : (Override.key field, value) ∈ environment) :
    lastGiven? Override.field? field environment = some value := by
  have present : Override.key field ∈ environment.keys := List.mem_map.mpr ⟨_, given, rfl⟩
  obtain ⟨w, last⟩ := Option.isSome_iff_exists.mp
    (isSome_lastGiven? present (Override.field?_eq_some_iff.mpr rfl))
  obtain ⟨key, member, names⟩ := exists_of_lastGiven? last
  obtain rfl := Override.field?_eq_some_iff.mp names
  have same := List.inj_on_of_nodup_map distinct member given rfl
  rw [last, (Prod.mk.inj same).2]

/-- An override ends like metadata in which its value takes the place of what there is for the
field, under its key and under an alias. -/
theorem resolve_override (distinct : (environment.map Prod.fst).Nodup)
    (given : (Override.key field, value) ∈ environment) :
    resolve base environment strict =
      resolve
        (base.filter (fun m => m.1 ≠ field.key ∧ (field, m.1) ∉ aliases) ++ [(field.key, value)])
        (environment.filter fun m => m.1 ≠ Override.key field) strict := by
  have other {key : Text} :
      (key ≠ field.key ∧ (field, key) ∉ aliases) ↔ field? key ≠ some field := by
    rw [Ne, Ne, field?_eq_some_iff, not_or]
  have otherOverride {key : Text} :
      key ≠ Override.key field ↔ Override.field? key ≠ some field := by
    rw [Ne, Ne, Override.field?_eq_some_iff]
  simp only [other, otherOverride]
  apply resolve_eq_of_settled
  · -- Neither what is left out nor what takes its place is refused.
    have known : refusesField strict field.key = false := by simp [refusesField, field?_key]
    have keys (others : Members) : Members.keys (others ++ [(field.key, value)]) =
        others.keys ++ [field.key] := List.map_append
    rw [keys, List.find?_append]
    rw [find?_keys_filter, List.find?_cons_of_neg (by simp [known]), List.find?_nil, Option.or_none]
    intro m _ refuses
    simp only [refusesField, Bool.and_eq_true, Option.isNone_iff_eq_none] at refuses
    simp [refuses.1]
  · rw [inKeyOrder_filter, find?_keys_filter]
    intro m _ refuses
    simp only [refusesOverride, Bool.and_eq_true, Option.isNone_iff_eq_none] at refuses
    simp [refuses.1]
  · intro f
    rw [inKeyOrder_filter, lastGiven?_append]
    by_cases this : f = field
    · subst this
      have distinct : ((Json.Style.inKeyOrder environment).map Prod.fst).Nodup :=
        ((sortedBy_perm _ environment).map Prod.fst).nodup_iff.mpr distinct
      rw [lastGiven?_override distinct (Json.Style.mem_inKeyOrder.mpr given),
        lastGiven?_eq_none fun m member => of_decide_eq_true (List.mem_filter.mp member).2]
      simp [lastGiven?, field?_key]
    · have elsewhere : lastGiven? field? f [(field.key, value)] = none := by
        simp [lastGiven?, field?_key, eq_comm (a := field), this]
      rw [elsewhere, Option.none_or, lastGiven?_filter, lastGiven?_filter]
      · intro m _ names
        simp [names, this]
      · intro m _ names
        simp [names, this]

/-! ## The modes -/

/-- The overrides alone end like the whole environment in the lenient mode, and so does all that is
meant for this program in the strict mode. The strict mode ends well exactly where the lenient one
does, the metadata have no unknown field and nothing that is meant for this program is no override.
In either mode an override takes the place of what the metadata give its field under any key. -/
theorem resolve_modes (distinct : (environment.map Prod.fst).Nodup) :
    resolve base environment false = resolve base (Override.collect environment) false ∧
    resolve base environment true = resolve base (Override.collectAll environment) true ∧
    (∀ d, resolve base environment true = .ok d ↔
      resolve base environment false = .ok d ∧
      (∀ key ∈ base.keys, ∃ field : Field, key = field.key ∨ (field, key) ∈ aliases) ∧
      ∀ key ∈ environment.keys, key.startsWith Override.start = true →
        ∃ field, key = Override.key field) ∧
    ∀ field value strict, (Override.key field, value) ∈ environment →
      resolve base environment strict =
        resolve
          (base.filter (fun m => m.1 ≠ field.key ∧ (field, m.1) ∉ aliases) ++ [(field.key, value)])
          (environment.filter fun m => m.1 ≠ Override.key field) strict :=
  ⟨(resolve_collect base environment).symm, (resolve_collectAll base environment).symm,
    fun _ => resolve_strict_iff, fun _ _ _ given => resolve_override distinct given⟩

end Metadata

namespace Sample

open Metadata

set_option maxRecDepth 100000 in
/-- The number that is overridden counts like one in metadata without the number under the key and
the one under the alias. -/
theorem resolve_modes_of_number :
    (numberOverrides.map Prod.fst).Nodup ∧
    resolve twiceNumbered (Override.collectAll numberOverrides) true =
      .ok { resolvedWith "tools" with numericId := 7, docTitle := "demo" } ∧
    resolve [("name", .str " demo "), ("version", .str "1.0.0-rc.1 "),
        ("host", .str "x86_64-unknown-linux-gnu"), ("confidentiality", .str " RESTRICTED"),
        ("build_id_namespace", .str "tools"), ("numeric_id", .str "7")]
        [("PATH", .str "/bin")] true =
      .ok { resolvedWith "tools" with numericId := 7, docTitle := "demo" } := by
  have distinct : (numberOverrides.map Prod.fst).Nodup := by decide
  have given : resolve twiceNumbered numberOverrides true =
      .ok { resolvedWith "tools" with numericId := 7, docTitle := "demo" } := by rfl
  obtain ⟨_, meant, _, replaced⟩ := @resolve_modes twiceNumbered numberOverrides distinct
  refine ⟨distinct, meant.symm.trans given, ?_⟩
  exact (replaced .numericId (.str "7") true List.mem_cons_self).symm.trans given

end Sample

end ModulePackaging
