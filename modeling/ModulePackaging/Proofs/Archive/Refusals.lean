import ModulePackaging.Proofs.Archive.Accepted
import ModulePackaging.Proofs.Json.Limits

/-!
# Refusals of the reader

What becomes of a container whose members can all be read, whatever its manifest says. Reading goes
through the manifest in a fixed order, each part is checked, and what does not fit is refused as a
problem of integrity. Three things get past the checks and end the reading otherwise: a limit of the
JSON reader, a descriptor that is no object and does not count as absent, and flags of the host
interface that are no set.

Main statement (`readFrom_refuses`): reading gives an archive or a problem of integrity, unless the
manifest slips past the checks in one of these ways; and wherever it does, reading ends with that
very fault, which is no problem at all.
-/

namespace ModulePackaging

/-- A fault that is a problem of integrity. -/
def Fault.IsIntegrity (fault : Fault) : Prop :=
  ∃ problem : Problem, fault = .problem problem ∧ problem.kind = .integrity

/-- A container whose members can all be read. -/
def Zip.Container.IsIntact (container : Zip.Container) : Prop :=
  ∀ name ∈ container.names, ∃ data, container.read? name = some (.ok data)

/-! ## Steps that refuse for integrity -/

section Refuses

variable {α β : Type} {other : Fault → Prop} {x : Except Fault α} {f : α → Except Fault β}

/-- A result that is a value, a problem of integrity, or a fault of some other kind. -/
def Refuses (other : Fault → Prop) (x : Except Fault α) : Prop :=
  ∀ fault, x = .error fault → fault.IsIntegrity ∨ other fault

theorem Refuses.ok (a : α) : Refuses other (.ok a) := by
  intro fault failed
  exact absurd failed (by simp)

theorem Refuses.pure (a : α) : Refuses other (Pure.pure a : Except Fault α) := Refuses.ok a

theorem Refuses.error {fault : Fault} (h : other fault) :
    Refuses other (.error fault : Except Fault α) := by
  intro found same
  obtain rfl := Except.error.inj same
  exact .inr h

/-- A step after another one refuses as both do; it is only taken with the value of the first. -/
theorem Refuses.bind (first : Refuses other x) (onward : ∀ a, x = .ok a → Refuses other (f a)) :
    Refuses other (x >>= f) := by
  intro fault failed
  rcases bind_eq_error.mp failed with refused | ⟨a, given, refused⟩
  · exact first fault refused
  · exact onward a given fault refused

theorem Refuses.mono {wider : Fault → Prop} (h : Refuses other x)
    (more : ∀ {fault}, other fault → wider fault) : Refuses wider x := by
  intro fault failed
  exact (h fault failed).imp id more

theorem Refuses.of_ok {a : α} (h : x = .ok a) : Refuses other x := by
  rw [h]
  exact Refuses.ok a

theorem Refuses.mapError {ε : Type} {y : Except ε α} {g : ε → Fault}
    (h : ∀ e, y = .error e → (g e).IsIntegrity ∨ other (g e)) : Refuses other (y.mapError g) := by
  intro fault failed
  obtain ⟨e, refused, rfl⟩ := mapError_eq_error.mp failed
  exact h e refused

end Refuses

namespace Archive

variable {container : Zip.Container} {manifest : Bytes} {fault : Fault}

/-- All refusals of the reader are problems of integrity, but for a descriptor that is no object. -/
theorem ReadError.isIntegrity_toFault {e : ReadError}
    (fields : ∀ kind, e ≠ .descriptor (.notObject kind)) : e.toFault.IsIntegrity := by
  cases e with
  | descriptor e =>
      cases e with
      | notObject kind => exact absurd rfl (fields kind)
      | _ => exact ⟨_, rfl, rfl⟩
  | _ => exact ⟨_, rfl, rfl⟩

theorem refuses_refuse {α : Type} {other : Fault → Prop} {e : ReadError}
    (fields : ∀ kind, e ≠ .descriptor (.notObject kind)) :
    Refuses other (refuse e : Except Fault α) := by
  intro found same
  obtain rfl := Except.error.inj same
  exact .inl (e.isIntegrity_toFault fields)

end Archive

/-! ## Values that are no sets -/

/-- A value that is there and that no set of scalars can be made of, with the words for it: a single
truth value or number, or an array with an array or an object in it. -/
inductive HoldsNoSet : Json → Text → Prop
  | bool : HoldsNoSet (.bool true) "'bool' object is not iterable"
  | int {n : Int} (nonzero : n ≠ 0) : HoldsNoSet (.int n) "'int' object is not iterable"
  | float {x : Binary64} (nonzero : x.isNonzero = true) :
      HoldsNoSet (.float x) "'float' object is not iterable"
  | nested {items : List Json} {item : Json} (member : item ∈ items)
      (container : item.isScalar = false) : HoldsNoSet (.arr items) "unhashable type"

namespace RecordedFlags

/-- A set cannot be made of values among which there is an array or an object. -/
theorem ofValues?_eq_none_iff {values : List Json} :
    ofValues? values = none ↔ ∃ value ∈ values, value.isScalar = false := by
  constructor
  · intro none
    unfold ofValues? at none
    split at none
    · exact absurd none (by simp)
    · split at none
      · exact absurd none (by simp)
      · rename_i mixed
        simpa using mixed
  · rintro ⟨value, member, container⟩
    have noText : values.mapM Json.text? = none := by
      induction values with
      | nil => exact absurd member List.not_mem_nil
      | cons first rest ih =>
          rw [List.mapM_cons]
          rcases List.mem_cons.mp member with rfl | member
          · cases value with
            | arr | obj => rfl
            | _ => exact absurd container (by simp [Json.isScalar])
          · rw [ih member]
            cases first.text? <;> rfl
    have mixed : values.all Json.isScalar = false := List.all_eq_false.mpr
      ⟨value, member, by simp [container]⟩
    simp [ofValues?, noText, mixed]

theorem ofValues?_strs (ts : List Text) : ∃ flags, ofValues? (ts.map Json.str) = some flags := by
  apply Option.ne_none_iff_exists'.mp
  rw [Ne, ofValues?_eq_none_iff]
  rintro ⟨value, member, container⟩
  obtain ⟨t, _, rfl⟩ := List.mem_map.mp member
  exact absurd container (by simp [Json.isScalar])

/-- What is there and cannot be taken apart gives no flags. -/
theorem ofJson_of_single {value : Json} (present : value.isTruthy = true)
    (single : valuesOf? value = none) :
    ofJson value = .error (.wrongKind ("'" ++ value.kindName ++ "' object is not iterable")) := by
  simp [ofJson, present, single]

/-- Exactly what holds no set gives no flags. -/
theorem ofJson_eq_error_iff {value : Json} {fault : Fault} :
    ofJson value = .error fault ↔ ∃ message, HoldsNoSet value message ∧ fault = .wrongKind message := by
  constructor
  · intro failed
    unfold ofJson at failed
    split at failed
    · exact absurd failed (by simp)
    · rename_i present
      cases value with
      | null => exact absurd rfl present
      | bool b =>
          obtain rfl : b = true := by simpa [Json.isTruthy] using present
          exact ⟨_, .bool, (Except.error.inj failed).symm⟩
      | int n =>
          exact ⟨_, .int (by simpa [Json.isTruthy] using present), (Except.error.inj failed).symm⟩
      | float x =>
          exact ⟨_, .float (by simpa [Json.isTruthy] using present), (Except.error.inj failed).symm⟩
      | str t =>
          obtain ⟨flags, made⟩ := ofValues?_strs (t.map fun c => [c])
          rw [List.map_map] at made
          simp only [valuesOf?, Function.comp_def] at failed made
          rw [made] at failed
          exact absurd failed (by simp)
      | arr items =>
          simp only [valuesOf?] at failed
          split at failed
          · exact absurd failed (by simp)
          · rename_i none
            obtain ⟨item, member, container⟩ := ofValues?_eq_none_iff.mp none
            exact ⟨_, .nested member container, (Except.error.inj failed).symm⟩
      | obj members =>
          obtain ⟨flags, made⟩ := ofValues?_strs (Members.keys members)
          simp only [valuesOf?, made] at failed
          exact absurd failed (by simp)
  · rintro ⟨message, none, rfl⟩
    cases none with
    | bool => rfl
    | int nonzero => exact ofJson_of_single (by simpa [Json.isTruthy] using nonzero) rfl
    | float nonzero => exact ofJson_of_single (by simpa [Json.isTruthy] using nonzero) rfl
    | @nested items item member container =>
        have present : items ≠ [] := List.ne_nil_of_mem member
        have none := ofValues?_eq_none_iff.mpr ⟨item, member, container⟩
        simp [ofJson, Json.isTruthy, present, valuesOf?, none]

end RecordedFlags

/-- The members of an object are never refused for being no object. -/
theorem Descriptor.ofMembers_ne_notObject {members : Members} {kind : Text} :
    ofMembers members ≠ .error (.notObject kind) := by
  intro refused
  unfold ofMembers at refused
  rcases guard_eq_error.mp refused with ⟨_, same⟩ | ⟨_, refused⟩
  · exact absurd same (by simp)
  · rcases guard_eq_error.mp refused with ⟨_, same⟩ | ⟨_, refused⟩
    · exact absurd same (by simp)
    · rcases guard_eq_error.mp refused with ⟨_, same⟩ | ⟨_, refused⟩
      · exact absurd same (by simp)
      · rcases bind_eq_error.mp refused with refused | ⟨d, _, refused⟩
        · obtain ⟨e, _, same⟩ := mapError_eq_error.mp refused
          exact absurd same (by simp)
        · split at refused
          · exact absurd (Except.error.inj refused) (by simp)
          · exact absurd refused (by simp [pure, Except.pure])

namespace Archive

variable {container : Zip.Container} {manifest : Bytes} {members : Members} {fault : Fault}

/-! ## What slips past the checks -/

/-- How a manifest ends the reading with a fault that is no problem of integrity: by a limit of the
JSON reader; or, its text read, by a descriptor that is there and is no object; or, descriptor and
signature passed, by flags of a host interface that are no set, the flags that the version brings
being looked at before the ones that it removes. -/
inductive Slips (manifest : Bytes) : Fault → Prop
  | limit {t : Text} {e : Json.ReadError} (text : Utf8.decode manifest = .ok t)
      (stopped : Json.read t = .error e) (limit : e.IsLimit) : Slips manifest (.json e)
  | descriptor {members : Members} (known : manifestMembers manifest = .ok members)
      (present : (valueAt members "descriptor").isTruthy = true)
      (other : ∀ fields, valueAt members "descriptor" ≠ .obj fields) :
      Slips manifest (.missingPart
        ("'" ++ (valueAt members "descriptor").kindName ++ "' object has no attribute 'keys'"))
  | flags {members api : Members} {d : Descriptor} {block : SignatureBlock} {version : Version}
      {message : Text} (known : manifestMembers manifest = .ok members)
      (descriptor : Descriptor.ofJson (presentOr (valueAt members "descriptor")) = .ok d)
      (signature : SignatureBlock.ofJson (presentOr (valueAt members "signature")) = .ok block)
      (recorded : valueAt members "host_api" = .obj api)
      (named : Version.parse (valueAt api "version").inMessage = .ok version)
      (noSet : HoldsNoSet (valueAt api "feature_flags") message ∨
        (∀ words, ¬ HoldsNoSet (valueAt api "feature_flags") words) ∧
          HoldsNoSet (valueAt api "removed_flags") message) :
      Slips manifest (.wrongKind message)

theorem Slips.problem?_eq_none (h : Slips manifest fault) : fault.problem? = none := by
  cases h <;> rfl

/-! ## Each part of the manifest -/

theorem refuses_manifestValue : Refuses (Slips manifest) (manifestValue manifest) := by
  unfold manifestValue
  split
  · exact refuses_refuse (by simp)
  · rename_i t text
    split
    · exact Refuses.ok _
    · exact refuses_refuse (by simp)
    · rename_i e notDefect stopped
      apply Refuses.error
      cases e with
      | defect what position line column => exact absurd rfl (notDefect what position line column)
      | tooLong digits => exact .limit text stopped trivial
      | tooDeep nested => exact .limit text stopped trivial

theorem refuses_manifestMembers : Refuses (Slips manifest) (manifestMembers manifest) := by
  unfold manifestMembers
  apply refuses_manifestValue.bind
  intro value _
  split
  · split
    · exact refuses_refuse (by simp)
    · split
      · split
        · exact refuses_refuse (by simp)
        · exact Refuses.pure _
      · exact refuses_refuse (by simp)
  · exact refuses_refuse (by simp)

/-- A descriptor that counts as absent is refused like an empty object, and any other value that is
no object slips past. -/
theorem refuses_descriptor (known : manifestMembers manifest = .ok members) :
    Refuses (Slips manifest) ((Descriptor.ofJson (presentOr (valueAt members "descriptor"))).mapError
      fun e => (ReadError.descriptor e).toFault) := by
  apply Refuses.mapError
  intro e refused
  by_cases object : ∃ kind, e = .notObject kind
  · obtain ⟨kind, rfl⟩ := object
    right
    cases present : (valueAt members "descriptor").isTruthy with
    | false =>
        rw [presentOr, present] at refused
        exact absurd refused (by simp [Descriptor.ofJson, Descriptor.ofMembers_ne_notObject])
    | true =>
        rw [presentOr, present, if_pos rfl] at refused
        have other : ∀ fields, valueAt members "descriptor" ≠ .obj fields := by
          intro fields same
          rw [same] at refused
          exact Descriptor.ofMembers_ne_notObject refused
        obtain rfl : kind = (valueAt members "descriptor").kindName := by
          cases form : valueAt members "descriptor" with
          | obj fields => exact absurd form (other fields)
          | _ =>
              rw [form] at refused
              exact (StoredError.notObject.inj (Except.error.inj refused)).symm
        exact .descriptor known present other
  · left
    apply ReadError.isIntegrity_toFault
    intro kind same
    exact object ⟨kind, ReadError.descriptor.inj same⟩

theorem refuses_signature {other : Fault → Prop} (value : Json) :
    Refuses other ((SignatureBlock.ofJson value).mapError fun e => (ReadError.signature e).toFault) :=
  Refuses.mapError fun e _ => .inl (ReadError.isIntegrity_toFault (by simp))

/-- The flags of a host interface are the only part of it that can slip past. -/
theorem refuses_recordedApi {d : Descriptor} {block : SignatureBlock}
    (known : manifestMembers manifest = .ok members)
    (descriptor : Descriptor.ofJson (presentOr (valueAt members "descriptor")) = .ok d)
    (signature : SignatureBlock.ofJson (presentOr (valueAt members "signature")) = .ok block) :
    Refuses (Slips manifest) (recordedApi (valueAt members "host_api")) := by
  unfold recordedApi
  split
  · exact Refuses.ok _
  · rename_i api recorded
    split
    · exact refuses_refuse (by simp)
    · rename_i version named
      apply Refuses.bind
      · intro fault failed
        obtain ⟨message, noSet, rfl⟩ := RecordedFlags.ofJson_eq_error_iff.mp failed
        exact .inr (.flags known descriptor signature recorded named (.inl noSet))
      · intro flags given
        apply Refuses.bind
        · intro fault failed
          obtain ⟨message, noSet, rfl⟩ := RecordedFlags.ofJson_eq_error_iff.mp failed
          have first : ∀ words, ¬ HoldsNoSet (valueAt api "feature_flags") words := by
            intro words noSet
            have refused := RecordedFlags.ofJson_eq_error_iff.mpr ⟨words, noSet, rfl⟩
            exact absurd (given.symm.trans refused) (by simp)
          exact .inr (.flags known descriptor signature recorded named (.inr ⟨first, noSet⟩))
        · intro removed _
          exact Refuses.pure _
  · exact refuses_refuse (by simp)

theorem refuses_listingOf {other : Fault → Prop} : Refuses other (listingOf members) := by
  unfold listingOf
  split
  · exact Refuses.ok _
  · exact refuses_refuse (by simp)

/-! ## The members of the container -/

/-- What is found in an intact container can be read. -/
theorem exists_of_isIntact (intact : container.IsIntact) {name : Text}
    {content : Except Zip.Error Bytes} (found : container.read? name = some content) :
    ∃ data, content = .ok data := by
  obtain ⟨data, held⟩ := intact name (mem_names_of_read found)
  exact ⟨data, Option.some.inj (found.symm.trans held)⟩

theorem refuses_manifestOf {other : Fault → Prop} (intact : container.IsIntact) (place : Text) :
    Refuses other (manifestOf container place) := by
  unfold manifestOf
  split
  · exact refuses_refuse (by simp)
  · split
    · exact refuses_refuse (by simp)
    · rename_i content found
      obtain ⟨data, rfl⟩ := exists_of_isIntact intact found
      exact Refuses.ok data

theorem refuses_listedContent {other : Fault → Prop} (intact : container.IsIntact) (entry : Json) :
    Refuses other (listedContent container entry) := by
  unfold listedContent
  split
  · split
    · split
      · exact refuses_refuse (by simp)
      · rename_i content found
        obtain ⟨data, rfl⟩ := exists_of_isIntact intact found
        refine Refuses.bind (Refuses.ok data) ?_
        intro data _
        simp only
        split
        · exact refuses_refuse (by simp)
        · split
          · exact refuses_refuse (by simp)
          · exact Refuses.pure _
    · exact refuses_refuse (by simp)
  · exact refuses_refuse (by simp)

theorem Collected.refuses_add {other : Fault → Prop} (c : Collected) (module name : Text)
    (data : Bytes) : Refuses other (c.add module name data) := by
  unfold Collected.add
  split
  · exact Refuses.ok _
  · split
    · exact Refuses.ok _
    · exact refuses_refuse (by simp)

/-- A listing is collected or refused, entry by entry. -/
theorem refuses_collect {other : Fault → Prop} (intact : container.IsIntact) (module : Text)
    (listing : List Json) (c : Collected) : Refuses other (collect container module c listing) := by
  induction listing generalizing c with
  | nil => exact Refuses.ok c
  | cons entry rest ih =>
      rw [collect]
      apply (refuses_listedContent intact entry).bind
      rintro ⟨name, data⟩ _
      apply (c.refuses_add module name data).bind
      intro next _
      exact ih next

/-! ## Whole containers -/

/-- What the manifest of a container slips past the checks. -/
def SlipsPast (container : Zip.Container) (fault : Fault) : Prop :=
  container.names.Nodup ∧ ∃ manifest,
    container.read? Layout.manifestPath = some (.ok manifest) ∧ Slips manifest fault

theorem refuses_ofContainer (intact : container.IsIntact) (place : Text) :
    Refuses (SlipsPast container) (ofContainer container place) := by
  unfold ofContainer
  apply (refuses_manifestOf intact place).bind
  intro manifest stored
  have past : ∀ {fault}, Slips manifest fault → SlipsPast container fault := by
    intro fault slips
    obtain ⟨distinct, found⟩ := manifestOf_eq_ok stored
    exact ⟨distinct, manifest, found, slips⟩
  apply (refuses_manifestMembers.mono past).bind
  intro members known
  apply ((refuses_descriptor known).mono past).bind
  intro d descriptor
  have descriptor := mapError_eq_ok.mp descriptor
  apply (refuses_signature _).bind
  intro block signature
  have signature := mapError_eq_ok.mp signature
  apply ((refuses_recordedApi known descriptor signature).mono past).bind
  intro hostApi _
  apply refuses_listingOf.bind
  intro listing _
  obtain ⟨module, modulePath⟩ := Draft.exists_modulePath (isChecked_of_ofJson descriptor)
  apply (Refuses.of_ok modulePath).bind
  intro module _
  apply (refuses_collect intact module listing .nothing).bind
  intro c _
  simp only
  split
  · exact refuses_refuse (by simp)
  · split
    · exact refuses_refuse (by simp)
    · exact Refuses.pure _

/-- The manifest is found where all names are different. -/
theorem manifestOf_of_nodup {place : Text} (distinct : container.names.Nodup)
    (stored : container.read? Layout.manifestPath = some (.ok manifest)) :
    manifestOf container place = .ok manifest := by
  unfold manifestOf
  rw [hasRepetition_eq_false.mpr distinct, stored]
  rfl

/-- What slips past the checks ends the reading. -/
theorem ofContainer_of_slipsPast {place : Text} (h : SlipsPast container fault) :
    ofContainer container place = .error fault := by
  obtain ⟨distinct, manifest, stored, slips⟩ := h
  refine bind_eq_error.mpr (.inr ⟨manifest, manifestOf_of_nodup distinct stored, ?_⟩)
  cases slips with
  | @limit t e text stopped limit =>
      refine bind_eq_error.mpr (.inl (bind_eq_error.mpr (.inl ?_)))
      unfold manifestValue
      rw [text]
      simp only [stopped]
      cases e with
      | defect => exact absurd limit not_false
      | _ => rfl
  | @descriptor members known present other =>
      refine bind_eq_error.mpr (.inr ⟨members, known, bind_eq_error.mpr (.inl ?_)⟩)
      refine mapError_eq_error.mpr ⟨.notObject (valueAt members "descriptor").kindName, ?_, rfl⟩
      rw [presentOr, if_pos present]
      cases form : valueAt members "descriptor" with
      | obj fields => exact absurd form (other fields)
      | _ => rfl
  | @flags members api d block version message known descriptor signature recorded named noSet =>
      refine bind_eq_error.mpr (.inr ⟨members, known, ?_⟩)
      refine bind_eq_error.mpr (.inr ⟨d, mapError_eq_ok.mpr descriptor, ?_⟩)
      refine bind_eq_error.mpr (.inr ⟨block, mapError_eq_ok.mpr signature, ?_⟩)
      refine bind_eq_error.mpr (.inl ?_)
      rw [recorded, recordedApi]
      simp only [named]
      rcases noSet with noSet | ⟨first, noSet⟩
      · refine bind_eq_error.mpr (.inl ?_)
        exact RecordedFlags.ofJson_eq_error_iff.mpr ⟨message, noSet, rfl⟩
      · cases given : RecordedFlags.ofJson (valueAt api "feature_flags") with
        | error fault =>
            obtain ⟨words, noSet, _⟩ := RecordedFlags.ofJson_eq_error_iff.mp given
            exact absurd noSet (first words)
        | ok flags =>
            refine bind_eq_error.mpr (.inr ⟨flags, rfl, bind_eq_error.mpr (.inl ?_)⟩)
            exact RecordedFlags.ofJson_eq_error_iff.mpr ⟨message, noSet, rfl⟩

/-- Reading an intact container gives an archive or a problem of integrity, unless its manifest slips
past the checks; and what slips past them ends the reading, and is no problem at all. -/
theorem readFrom_refuses {files : Files.Tree} {p : Path}
    (opened : containerIn files p = .ok container) (intact : container.IsIntact) :
    (∀ fault, readFrom files p = .error fault →
      (∃ problem, fault = .problem problem ∧ problem.kind = .integrity) ∨
        SlipsPast container fault) ∧
    (∀ fault, SlipsPast container fault →
      readFrom files p = .error fault ∧ fault.problem? = none) := by
  have same : readFrom files p = ofContainer container p.toText := by
    rw [readFrom, opened]
    rfl
  rw [same]
  refine ⟨refuses_ofContainer intact p.toText, ?_⟩
  intro fault slips
  refine ⟨ofContainer_of_slipsPast slips, ?_⟩
  obtain ⟨_, _, _, past⟩ := slips
  exact past.problem?_eq_none

end Archive

namespace Sample

open Archive

/-- A manifest of the right format with some descriptor, and with nothing of the right kind in it. -/
def hostile (descriptor : Json) : Json := .obj [
  ("format", .str formatName), ("format_version", .int 1), ("descriptor", descriptor),
  ("signature", .arr [.null]), ("host_api", .bool true), ("resources", .int 5)]

/-- A container that has nothing but such a manifest. -/
def hostileContainer (descriptor : Json) : Except Fault Bytes := do
  return Zip.write [⟨Layout.manifestPath, ← (hostile descriptor).storedBytes⟩]

/-- Whether all members of a container can be read. -/
def isIntact (container : Zip.Container) : Bool :=
  container.names.all fun name =>
    match container.read? name with
    | some content => passes content fun _ => true
    | none => false

theorem isIntact_of {container : Zip.Container} (h : isIntact container = true) :
    container.IsIntact := by
  intro name member
  have one := List.all_eq_true.mp h name member
  split at one
  · rename_i content found
    obtain ⟨data, rfl, _⟩ := exists_of_passes one
    exact ⟨data, found⟩
  · exact absurd one (by simp)

/-- Whether reading what came in ends with a fault that passes a test. -/
def endsWith (bytes : Bytes) (test : Fault → Bool) : Bool :=
  match readFrom (received bytes) incoming with
  | .error fault => test fault
  | .ok _ => false

theorem exists_of_endsWith {bytes : Bytes} {test : Fault → Bool} (h : endsWith bytes test = true) :
    ∃ fault, readFrom (received bytes) incoming = .error fault ∧ test fault = true := by
  unfold endsWith at h
  split at h
  · rename_i fault failed
    exact ⟨fault, failed, h⟩
  · exact absurd h (by simp)

set_option maxRecDepth 100000 in
/-- A manifest with a zero for the descriptor is refused for integrity. -/
theorem readFrom_refuses_zero :
    ∃ bytes container problem, hostileContainer (.int 0) = .ok bytes ∧
      containerIn (received bytes) incoming = .ok container ∧ container.IsIntact ∧
      readFrom (received bytes) incoming = .error (.problem problem) ∧
      problem.kind = .integrity := by
  have run : passes (hostileContainer (.int 0)) (fun bytes =>
      passes (containerIn (received bytes) incoming) isIntact &&
        endsWith bytes fun fault => fault.problem?.isSome) = true := by
    decide +kernel
  obtain ⟨bytes, written, run⟩ := exists_of_passes run
  obtain ⟨run, failed⟩ := (Bool.and_eq_true _ _).mp run
  obtain ⟨container, opened, intact⟩ := exists_of_passes run
  obtain ⟨fault, failed, some⟩ := exists_of_endsWith failed
  obtain ⟨integrity, slips⟩ := readFrom_refuses opened (isIntact_of intact)
  rcases integrity fault failed with ⟨problem, rfl, kind⟩ | past
  · exact ⟨bytes, container, problem, written, opened, isIntact_of intact, failed, kind⟩
  · rw [(slips fault past).2] at some
    exact absurd some (by simp)

set_option maxRecDepth 100000 in
/-- A manifest with an array for the descriptor ends the reading with a fault that is no problem. -/
theorem array_not_refused :
    ∃ bytes container, hostileContainer (.arr [.null]) = .ok bytes ∧
      containerIn (received bytes) incoming = .ok container ∧ container.IsIntact ∧
      ∃ fault, readFrom (received bytes) incoming = .error fault ∧ fault.problem? = none ∧
        fault.kindName = "AttributeError" := by
  have run : passes (hostileContainer (.arr [.null])) (fun bytes =>
      passes (containerIn (received bytes) incoming) isIntact &&
        endsWith bytes fun fault =>
          fault.problem?.isNone && fault.kindName == "AttributeError") = true := by
    decide +kernel
  obtain ⟨bytes, written, run⟩ := exists_of_passes run
  obtain ⟨run, failed⟩ := (Bool.and_eq_true _ _).mp run
  obtain ⟨container, opened, intact⟩ := exists_of_passes run
  obtain ⟨fault, failed, kind⟩ := exists_of_endsWith failed
  obtain ⟨none, kind⟩ := (Bool.and_eq_true _ _).mp kind
  exact ⟨bytes, container, written, opened, isIntact_of intact, fault, failed,
    Option.isNone_iff_eq_none.mp none, eq_of_beq kind⟩

end Sample

end ModulePackaging
