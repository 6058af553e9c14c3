import ModulePackaging.Proofs.Resolving
import ModulePackaging.Proofs.Sorting

/-!
# Metadata in another order

Metadata is an object, whose members come in no order that means anything; and yet it is filled in
member by member, where a later member replaces what an earlier one has put into the same field. The
keys are distinct, but two fields have an alias beside their key. Overrides are sorted first.

Main statement (`resolve_reordered`): metadata and overrides in any other order give the same
descriptor or fail as well, in either mode, if no field is given under its key and under its alias
with different values, or if such a field is overridden. Of two members for one field the earlier
one never counts, so that in the remaining case it is the order that decides.
-/

namespace ModulePackaging

namespace Metadata

variable {base base' overrides overrides' : Members} {strict : Bool} {draft filled : Draft}
  {field : Field} {key : Text} {value : Json} {d : Descriptor}

/-! ## What members give a field -/

/-- The value that the last of the members for a field gives it, where `named` tells the field that
a key is for. -/
def lastGiven? (named : Text → Option Field) (field : Field) : Members → Option Json
  | [] => none
  | (key, value) :: rest =>
    (lastGiven? named field rest).or (if named key = some field then some value else none)

section LastGiven

variable {named : Text → Option Field} {members members' : Members}

theorem lastGiven?_append (members members' : Members) :
    lastGiven? named field (members ++ members') =
      (lastGiven? named field members').or (lastGiven? named field members) := by
  induction members with
  | nil => simp [lastGiven?]
  | cons m rest ih => rw [List.cons_append, lastGiven?, lastGiven?, ih, Option.or_assoc]

/-- What a field is given is the value of a member for it. -/
theorem exists_of_lastGiven? (h : lastGiven? named field members = some value) :
    ∃ key, (key, value) ∈ members ∧ named key = some field := by
  induction members with
  | nil => exact absurd h (by simp [lastGiven?])
  | cons m rest ih =>
      obtain ⟨key, v⟩ := m
      rcases Option.or_eq_some_iff.mp h with later | ⟨_, here⟩
      · obtain ⟨other, member, names⟩ := ih later
        exact ⟨other, List.mem_cons_of_mem _ member, names⟩
      · split at here
        · rename_i names
          obtain rfl := Option.some.inj here
          exact ⟨key, List.mem_cons_self, names⟩
        · exact absurd here (by simp)

/-- A field for which there is a member is given a value. -/
theorem isSome_lastGiven? (member : key ∈ members.keys) (names : named key = some field) :
    (lastGiven? named field members).isSome = true := by
  induction members with
  | nil => exact absurd member (by simp [Members.keys])
  | cons m rest ih =>
      rw [lastGiven?, Option.isSome_or]
      rcases List.mem_cons.mp member with rfl | later
      · simp [names]
      · simp [ih later]

/-- Members in another order give a field the same if the members for it agree. -/
theorem lastGiven?_eq_of_perm (same : members.Perm members')
    (agree : ∀ key v other w, (key, v) ∈ members → (other, w) ∈ members →
      named key = some field → named other = some field → v = w) :
    lastGiven? named field members = lastGiven? named field members' := by
  cases here : lastGiven? named field members with
  | none =>
      cases there : lastGiven? named field members' with
      | none => rfl
      | some w =>
          obtain ⟨key, member, names⟩ := exists_of_lastGiven? there
          have present : key ∈ members.keys := List.mem_map.mpr ⟨_, same.mem_iff.mpr member, rfl⟩
          exact absurd (isSome_lastGiven? present names) (by simp [here])
  | some v =>
      obtain ⟨key, member, names⟩ := exists_of_lastGiven? here
      have present : key ∈ members'.keys := List.mem_map.mpr ⟨_, same.mem_iff.mp member, rfl⟩
      obtain ⟨w, there⟩ := Option.isSome_iff_exists.mp (isSome_lastGiven? present names)
      obtain ⟨other, also, names'⟩ := exists_of_lastGiven? there
      rw [there, agree key v other w member (same.mem_iff.mpr also) names names']

end LastGiven

/-! ## Merging -/

section Loop

variable (named : Text → Option Field) (refused : Text → Bool) (refusal : Text → ResolveError)
  {loop : Draft → Members → Except ResolveError Draft} (done : ∀ draft, loop draft [] = .ok draft)
  (step : ∀ draft key value rest, loop draft ((key, value) :: rest) =
    match named key with
    | some field => loop (draft.set field value) rest
    | none => if refused key then .error (refusal key) else loop draft rest)
  (members : Members)

include done step

/-- A loop over members that fills in those it has a field for ends at the first one it refuses, or
else with what each field is given last. -/
theorem loop_eq : loop draft members =
    match members.keys.find? fun key => (named key).isNone && refused key with
    | some key => .error (refusal key)
    | none => .ok ⟨fun field => (lastGiven? named field members).or (draft.value? field)⟩ := by
  induction members generalizing draft with
  | nil => exact done draft
  | cons m rest ih =>
      obtain ⟨key, value⟩ := m
      have keys : Members.keys ((key, value) :: rest) = key :: Members.keys rest := rfl
      rw [step, keys, List.find?_cons]
      cases names : named key with
      | some field =>
          have same : (fun f => (lastGiven? named f rest).or ((draft.set field value).value? f)) =
              fun f => (lastGiven? named f ((key, value) :: rest)).or (draft.value? f) := by
            funext f
            rw [lastGiven?, names, Option.or_assoc, Draft.set]
            by_cases this : f = field
            · simp [this]
            · simp [this, eq_comm (a := field)]
          simp [ih, same]
      | none =>
          have same (f : Field) : lastGiven? named f ((key, value) :: rest) =
              lastGiven? named f rest := by
            simp [lastGiven?, names]
          cases refuses : refused key with
          | true => simp
          | false => simp [ih, same]

/-- The loop ends well exactly if it refuses no member. -/
theorem loop_eq_ok : loop draft members = .ok filled ↔
    (∀ key ∈ members.keys, named key = none → refused key = false) ∧
    filled = ⟨fun field => (lastGiven? named field members).or (draft.value? field)⟩ := by
  rw [loop_eq named refused refusal done step]
  cases first : members.keys.find? fun key => (named key).isNone && refused key with
  | some key =>
      have unnamed := List.find?_some first
      have member := List.mem_of_find?_eq_some first
      simp only [Bool.and_eq_true, Option.isNone_iff_eq_none] at unnamed
      refine iff_of_false (by simp) fun clear => ?_
      exact absurd (clear.1 key member unnamed.1) (by simp [unnamed.2])
  | none =>
      have clear : ∀ key ∈ members.keys, named key = none → refused key = false := by
        simpa using List.find?_eq_none.mp first
      rw [Except.ok.injEq, eq_comm]
      exact (and_iff_right clear).symm

end Loop

theorem fill_eq_ok : fill strict draft base = .ok filled ↔
    (∀ key ∈ base.keys, field? key = none → strict = false) ∧
    filled = ⟨fun field => (lastGiven? field? field base).or (draft.value? field)⟩ :=
  loop_eq_ok field? (fun _ => strict) .unknownField (fun _ => rfl) (fun _ _ _ _ => rfl) base

theorem override_eq_ok : override strict draft overrides = .ok filled ↔
    (∀ key ∈ overrides.keys, Override.field? key = none →
      (strict && key.startsWith Override.start) = false) ∧
    filled = ⟨fun field => (lastGiven? Override.field? field overrides).or (draft.value? field)⟩ :=
  loop_eq_ok Override.field? (fun key => strict && key.startsWith Override.start) .unknownOverride
    (fun _ => rfl) (fun _ _ _ _ => rfl) overrides

/-- The members are merged into what overrides give a field last, or else the metadata. -/
theorem merged_eq_ok : merged base overrides strict = .ok draft ↔
    (∀ key ∈ base.keys, field? key = none → strict = false) ∧
    (∀ key ∈ Members.keys (Json.Style.inKeyOrder overrides), Override.field? key = none →
      (strict && key.startsWith Override.start) = false) ∧
    draft = ⟨fun field => (lastGiven? Override.field? field (Json.Style.inKeyOrder overrides)).or
      (lastGiven? field? field base)⟩ := by
  unfold merged
  simp only [bind_eq_ok, fill_eq_ok, override_eq_ok]
  constructor
  · rintro ⟨_, ⟨known, rfl⟩, meant, rfl⟩
    exact ⟨known, meant, by simp [Draft.empty]⟩
  · rintro ⟨known, meant, rfl⟩
    exact ⟨_, ⟨known, rfl⟩, meant, by simp [Draft.empty]⟩

/-- What is resolved is settled by the keys and by what each field is given last. -/
theorem resolve_congr
    (known : (∀ key ∈ base.keys, field? key = none → strict = false) ↔
      ∀ key ∈ base'.keys, field? key = none → strict = false)
    (ordered : Json.Style.inKeyOrder overrides = Json.Style.inKeyOrder overrides')
    (given : ∀ field, lastGiven? Override.field? field (Json.Style.inKeyOrder overrides) = none →
      lastGiven? field? field base = lastGiven? field? field base') :
    resolve base overrides strict = .ok d ↔ resolve base' overrides' strict = .ok d := by
  have fields : (fun field =>
      (lastGiven? Override.field? field (Json.Style.inKeyOrder overrides)).or
        (lastGiven? field? field base)) = fun field =>
      (lastGiven? Override.field? field (Json.Style.inKeyOrder overrides)).or
        (lastGiven? field? field base') := by
    funext field
    cases overridden : lastGiven? Override.field? field (Json.Style.inKeyOrder overrides) with
    | none => rw [given field overridden]
    | some v => rfl
  simp only [resolve_eq_ok, merged_eq_ok, known, ← ordered, fields]

/-! ## Another order -/

/-- The fields that have another key in metadata, with that key. -/
def aliases : List (Field × Text) := [(.numericId, "package_number"), (.hostTriple, "host")]

theorem key_of_field? (h : field? key = some field) : key = field.key ∨ (field, key) ∈ aliases := by
  unfold field? at h
  split at h
  · rename_i other
    obtain rfl := Option.some.inj h
    exact .inr (by simp [aliases, other])
  · split at h
    · rename_i other
      obtain rfl := Option.some.inj h
      exact .inr (by simp [aliases, other])
    · have found : (Field.all.find? fun f => f.key == key) = some field := h
      have found := List.find?_some found
      exact .inl (beq_iff_eq.mp found).symm

theorem aliases_functional {k l : Text} (h : (field, k) ∈ aliases) (h' : (field, l) ∈ aliases) :
    k = l := by
  simp only [aliases, List.mem_cons, Prod.mk.injEq, List.not_mem_nil, or_false] at h h'
  rcases h with ⟨rfl, rfl⟩ | ⟨rfl, rfl⟩ <;> simpa [eq_comm] using h'

/-- A key of a field that overrides do not give is not among theirs. -/
theorem key_notMem_of_free
    (free : lastGiven? Override.field? field (Json.Style.inKeyOrder overrides) = none) :
    Override.key field ∉ overrides.keys := by
  intro member
  have inside : Override.key field ∈ Members.keys (Json.Style.inKeyOrder overrides) :=
    ((sortedBy_perm _ overrides).map Prod.fst).mem_iff.mpr member
  have names : Override.field? (Override.key field) = some field := by cases field <;> decide
  exact absurd (isSome_lastGiven? inside names) (by simp [free])

/-- Two members for one field agree if its key and its alias do. -/
theorem agree_of_aliases (distinct : (base.map Prod.fst).Nodup)
    (clash : ∀ second v w, (field, second) ∈ aliases → (field.key, v) ∈ base →
      (second, w) ∈ base → v = w)
    {key other : Text} {v w : Json} (here : (key, v) ∈ base) (there : (other, w) ∈ base)
    (names : field? key = some field) (names' : field? other = some field) : v = w := by
  have unique {key : Text} {v w : Json} (here : (key, v) ∈ base) (there : (key, w) ∈ base) :
      v = w :=
    (Prod.mk.inj (List.inj_on_of_nodup_map distinct here there rfl)).2
  rcases key_of_field? names with rfl | named <;> rcases key_of_field? names' with rfl | named'
  · exact unique here there
  · exact clash other v w named' here there
  · exact (clash key w v named there here).symm
  · obtain rfl := aliases_functional named named'
    exact unique here there

/-- The earlier one of two members for a field can be left out. -/
theorem resolve_without_earlier {before between behind : Members} {other : Text} {v w : Json}
    (names : field? key = some field) (names' : field? other = some field) :
    resolve (before ++ (key, v) :: (between ++ (other, w) :: behind)) overrides strict = .ok d ↔
      resolve (before ++ (between ++ (other, w) :: behind)) overrides strict = .ok d := by
  refine resolve_congr ?_ rfl ?_
  · -- The member that is left out has a field, so no check asks for its key.
    simp [Members.keys, or_imp, forall_and, names]
  intro f _
  rw [lastGiven?_append, lastGiven?_append, lastGiven?]
  by_cases this : field = f
  · subst this
    have later : (lastGiven? field? field (between ++ (other, w) :: behind)).isSome = true :=
      isSome_lastGiven? (by simp [Members.keys]) names'
    obtain ⟨u, given⟩ := Option.isSome_iff_exists.mp later
    simp [given]
  · simp [names, this]

/-- Metadata and overrides in another order give the same descriptor or fail as well, unless a field
that is not overridden is given under its key and under its alias with different values; and of two
members for one field the earlier one never counts. -/
theorem resolve_reordered (distinct : (base.map Prod.fst).Nodup)
    (apart : (overrides.map Prod.fst).Nodup) (same : base.Perm base')
    (alike : overrides.Perm overrides') :
    ((∀ field second v w, (field, second) ∈ aliases → (field.key, v) ∈ base → (second, w) ∈ base →
        v = w ∨ Override.key field ∈ overrides.keys) →
      ∀ d, resolve base overrides strict = .ok d ↔ resolve base' overrides' strict = .ok d) ∧
    (∀ before between behind key v other w field,
      base = before ++ (key, v) :: (between ++ (other, w) :: behind) →
      field? key = some field → field? other = some field →
      ∀ d, resolve base overrides strict = .ok d ↔
        resolve (before ++ (between ++ (other, w) :: behind)) overrides strict = .ok d) := by
  constructor
  · intro agree d
    have ordered : Json.Style.inKeyOrder overrides = Json.Style.inKeyOrder overrides' :=
      sortedByKey_eq_of_perm Prod.fst alike apart
    refine resolve_congr ?_ ordered fun field free => ?_
    · simp only [Members.keys, (same.map Prod.fst).mem_iff]
    apply lastGiven?_eq_of_perm same
    -- What an alias may differ in counts only where the overrides leave the field to the metadata.
    have clash (second : Text) (v w : Json) (named : (field, second) ∈ aliases)
        (here : (field.key, v) ∈ base) (there : (second, w) ∈ base) : v = w :=
      (agree field second v w named here there).resolve_right (key_notMem_of_free free)
    exact fun key v other w here there => agree_of_aliases distinct clash here there
  · rintro before between behind key v other w field rfl names names' d
    exact resolve_without_earlier names names'

end Metadata

namespace Sample

open Metadata

/-- Metadata that gives the number under the alias and, before that, under the key. -/
def twiceNumbered : Members := ("numeric_id", .int 1002) :: namespaceMetadata "tools"

/-- An override of the number, and something that is not meant for packages. -/
def numberOverrides : Members := [("SIMPACK_PACKAGE_NUMBER", .str "7"), ("PATH", .str "/bin")]

set_option maxRecDepth 100000 in
/-- Turned around, metadata with two numbers gives the same if the number is overridden, and of the
two numbers the first one does not count. -/
theorem resolve_reordered_numbers :
    resolve twiceNumbered numberOverrides true =
      .ok { resolvedWith "tools" with numericId := 7, docTitle := "demo" } ∧
    (∀ d, resolve twiceNumbered numberOverrides true = .ok d ↔
      resolve twiceNumbered.reverse numberOverrides.reverse true = .ok d) ∧
    (∀ d, resolve twiceNumbered numberOverrides true = .ok d ↔
      resolve (namespaceMetadata "tools") numberOverrides true = .ok d) := by
  obtain ⟨reordered, later⟩ := @resolve_reordered twiceNumbered twiceNumbered.reverse
    numberOverrides numberOverrides.reverse true (by decide) (by decide)
    (List.reverse_perm _).symm (List.reverse_perm _).symm
  refine ⟨by rfl, reordered ?_, ?_⟩
  · intro field second v w named here there
    simp only [aliases, List.mem_cons, Prod.mk.injEq, List.not_mem_nil, or_false] at named
    rcases named with ⟨rfl, rfl⟩ | ⟨rfl, rfl⟩
    · exact .inr (by decide)
    · -- the host is given under its alias only
      have missing : Field.hostTriple.key ∉ twiceNumbered.keys := by decide
      exact absurd (List.mem_map.mpr ⟨_, here, rfl⟩) missing
  · exact later [] [("name", .str " demo ")] _ "numeric_id" _ "package_number" _ .numericId rfl
      (by decide) (by decide)

set_option maxRecDepth 100000 in
/-- Metadata with two numbers that is turned around gives the other number. -/
theorem numbers_not_reordered :
    resolve twiceNumbered titleOverrides true = .ok (resolvedWith "tools") ∧
    resolve twiceNumbered.reverse titleOverrides true =
      .ok { resolvedWith "tools" with numericId := 1002 } := by
  constructor <;> rfl

end Sample

end ModulePackaging
