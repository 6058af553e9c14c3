import ModulePackaging.Proofs.Json.Files

/-!
# Keys of objects that are read

The reader gives each key of an object once, however often the text has it: the last value of a
repeated key takes the place of the first (`keysOnce_of_ofFile`).
-/

namespace ModulePackaging

namespace Members

variable {members : Members}

theorem mem_put {key : Text} {value : Json} {m : Text × Json} (h : m ∈ members.put key value) :
    m = (key, value) ∨ m ∈ members := by
  induction members with
  | nil => exact .inl (List.mem_singleton.mp h)
  | cons first rest ih =>
      rw [put] at h
      split at h
      · exact (List.mem_cons.mp h).imp_right (List.mem_cons_of_mem first)
      · rcases List.mem_cons.mp h with rfl | later
        · exact .inr List.mem_cons_self
        · exact (ih later).imp_right (List.mem_cons_of_mem first)

/-- Setting a key that is there leaves the keys as they are. -/
theorem keys_put_of_mem {key : Text} {value : Json} (there : key ∈ members.keys) :
    (members.put key value).keys = members.keys := by
  induction members with
  | nil => exact absurd there List.not_mem_nil
  | cons first rest ih =>
      rw [put]
      split
      · rename_i here
        exact congrArg (· :: keys rest) here.symm
      · rename_i elsewhere
        rcases List.mem_cons.mp there with here | later
        · exact absurd here.symm elsewhere
        · exact congrArg (first.1 :: ·) (ih later)

theorem nodup_keys_put {key : Text} {value : Json} (distinct : members.keys.Nodup) :
    (members.put key value).keys.Nodup := by
  by_cases there : key ∈ members.keys
  · rwa [keys_put_of_mem there]
  · rw [put_of_notMem there, keys, List.map_append, List.nodup_append]
    refine ⟨distinct, List.nodup_singleton key, ?_⟩
    rintro a inside b last rfl
    obtain rfl := List.mem_singleton.mp last
    exact there inside

/-- Assignments leave each key once, with a value that it was set to. -/
theorem ofPairs_gives (pairs : List (Text × Json)) :
    (ofPairs pairs).keys.Nodup ∧ ∀ m ∈ ofPairs pairs, m ∈ pairs := by
  have run (pairs : List (Text × Json)) (set : Members) (distinct : set.keys.Nodup) :
      (pairs.foldl (fun members m => members.put m.1 m.2) set).keys.Nodup ∧
        ∀ m ∈ pairs.foldl (fun members m => members.put m.1 m.2) set, m ∈ set ∨ m ∈ pairs := by
    induction pairs generalizing set with
    | nil => exact ⟨distinct, fun _ => .inl⟩
    | cons first rest ih =>
        obtain ⟨once, from_⟩ := ih (set.put first.1 first.2) (nodup_keys_put distinct)
        refine ⟨once, fun m member => ?_⟩
        rcases from_ m member with put | later
        · rcases mem_put put with rfl | before
          · exact .inr List.mem_cons_self
          · exact .inl before
        · exact .inr (List.mem_cons_of_mem first later)
  obtain ⟨once, from_⟩ := run pairs [] List.nodup_nil
  exact ⟨once, fun m member => (from_ m member).resolve_left List.not_mem_nil⟩

theorem mem_of_get?_eq_some {key : Text} {value : Json} (h : members.get? key = some value) :
    (key, value) ∈ members := by
  induction members with
  | nil => exact absurd h (by simp [get?])
  | cons first rest ih =>
      rw [get?] at h
      split at h
      · rename_i here
        obtain rfl := Option.some.inj h
        exact here ▸ List.mem_cons_self
      · exact List.mem_cons_of_mem first (ih h)

end Members

namespace Json

/-- Values whose objects have each key once, however deep they are. -/
inductive KeysOnce : Json → Prop
  | null : KeysOnce .null
  | bool (b : Bool) : KeysOnce (.bool b)
  | int (n : Int) : KeysOnce (.int n)
  | float (x : Binary64) : KeysOnce (.float x)
  | str (t : Text) : KeysOnce (.str t)
  | arr {items : List Json} (inner : ∀ v ∈ items, KeysOnce v) : KeysOnce (.arr items)
  | obj {members : Members} (distinct : members.keys.Nodup) (inner : ∀ m ∈ members, KeysOnce m.2) :
      KeysOnce (.obj members)

namespace Reader

/-- A step that, if it finds a value, finds one whose objects have each key once. -/
def FindsKeysOnce (step : Except Stop (Found Json)) : Prop :=
  ∀ v next, step = .ok (v, next) → v.KeysOnce

theorem findsKeysOnce_ok {v : Json} {next : Cursor} (h : v.KeysOnce) :
    FindsKeysOnce (.ok (v, next)) := by
  intro _ _ same
  obtain ⟨rfl, _⟩ := Prod.mk.inj (Except.ok.inj same)
  exact h

theorem findsKeysOnce_error {stop : Stop} : FindsKeysOnce (.error stop) :=
  fun _ _ same => absurd same (by simp)

theorem findsKeysOnce_number (cursor : Cursor) : FindsKeysOnce (number cursor) := by
  unfold number
  simp only
  generalize (if cursor.here? == some (CodePoint.ofChar '-') then cursor.rest.drop 1
    else cursor.rest) = unsigned
  by_cases none : wholePart unsigned = 0
  · rw [if_pos none]
    exact findsKeysOnce_error
  · rw [if_neg none]
    split
    · by_cases long : wholePart unsigned > Decimal.digitLimit
      · rw [if_pos long]
        exact findsKeysOnce_error
      · rw [if_neg long]
        exact findsKeysOnce_ok (.int _)
    · exact findsKeysOnce_ok (.float _)

theorem findsKeysOnce_plain (cursor : Cursor) : FindsKeysOnce (plain cursor) := by
  unfold plain
  split
  · rename_i word value found
    have member := List.mem_of_find?_eq_some found
    refine findsKeysOnce_ok ?_
    simp only [words, List.mem_cons, Prod.mk.injEq, List.not_mem_nil, or_false] at member
    rcases member with ⟨_, rfl⟩ | ⟨_, rfl⟩ | ⟨_, rfl⟩ | ⟨_, rfl⟩ | ⟨_, rfl⟩ | ⟨_, rfl⟩
    · exact .null
    · exact .bool true
    · exact .bool false
    · exact .float _
    · exact .float _
    · exact .float _
  · exact findsKeysOnce_number cursor

/-- The readers of values, of objects and of arrays find each key once if they have some fuel, as long
as what they have read so far has each key once. -/
structure AllFindKeysOnce (fuel : Nat) : Prop where
  values : ∀ depth cursor, FindsKeysOnce (value depth fuel cursor)
  objects : ∀ depth read cursor, (∀ m ∈ read, m.2.KeysOnce) →
    FindsKeysOnce (members depth fuel read cursor)
  arrays : ∀ depth read cursor, (∀ v ∈ read, v.KeysOnce) →
    FindsKeysOnce (items depth fuel read cursor)

namespace AllFindKeysOnce

variable {fuel : Nat}

theorem value_succ (h : AllFindKeysOnce fuel) (depth : Nat) (cursor : Cursor) :
    FindsKeysOnce (value depth (fuel + 1) cursor) := by
  obtain ⟨p, rest⟩ := cursor
  cases rest with
  | nil => exact findsKeysOnce_error
  | cons c rest =>
      by_cases quote : c = 0x22
      · subst quote
        rw [value_string]
        intro v next found
        obtain ⟨⟨t, _⟩, _, same⟩ := bind_eq_ok.mp found
        exact findsKeysOnce_ok (.str t) v next same
      by_cases brace : c = 0x7B
      · subst brace
        cases depth with
        | zero => exact findsKeysOnce_error
        | succ depth =>
            rw [value_object]
            split
            · exact findsKeysOnce_ok (.obj List.nodup_nil (List.forall_mem_nil _))
            · exact h.objects depth [] _ (List.forall_mem_nil _)
      by_cases bracket : c = 0x5B
      · subst bracket
        cases depth with
        | zero => exact findsKeysOnce_error
        | succ depth =>
            rw [value_array]
            split
            · exact findsKeysOnce_ok (.arr (List.forall_mem_nil _))
            · exact h.arrays depth [] _ (List.forall_mem_nil _)
      rw [value_plain quote brace bracket]
      exact findsKeysOnce_plain _

/-- An object that ends has its members set one after the other, so a repeated key has one place. -/
theorem members_succ (h : AllFindKeysOnce fuel) (depth : Nat) (read : List (Text × Json))
    (cursor : Cursor) (before : ∀ m ∈ read, m.2.KeysOnce) :
    FindsKeysOnce (members depth (fuel + 1) read cursor) := by
  intro v last found
  rw [members] at found
  obtain ⟨⟨name, start⟩, _, found⟩ := bind_eq_ok.mp found
  obtain ⟨⟨member, next⟩, one, found⟩ := bind_eq_ok.mp found
  have all : ∀ m ∈ (name, member) :: read, m.2.KeysOnce :=
    List.forall_mem_cons.mpr ⟨h.values depth start member next one, before⟩
  simp only at found
  split at found
  · obtain ⟨once, set⟩ := Members.ofPairs_gives ((name, member) :: read).reverse
    exact findsKeysOnce_ok
      (.obj once fun m inside => all m (List.mem_reverse.mp (set m inside))) v last found
  · split at found
    · exact h.objects depth _ _ all v last found
    · exact absurd found (by simp [Cursor.refuse])

theorem items_succ (h : AllFindKeysOnce fuel) (depth : Nat) (read : List Json) (cursor : Cursor)
    (before : ∀ v ∈ read, v.KeysOnce) :
    FindsKeysOnce (items depth (fuel + 1) read cursor) := by
  intro v last found
  rw [items] at found
  obtain ⟨⟨item, next⟩, one, found⟩ := bind_eq_ok.mp found
  have all : ∀ v ∈ item :: read, v.KeysOnce :=
    List.forall_mem_cons.mpr ⟨h.values depth cursor item next one, before⟩
  simp only at found
  split at found
  · exact findsKeysOnce_ok (.arr fun v inside => all v (List.mem_reverse.mp inside)) v last found
  · split at found
    · exact h.arrays depth _ _ all v last found
    · exact absurd found (by simp [Cursor.refuse])

end AllFindKeysOnce

/-- By induction on the fuel, as a value, the rest of an object and the rest of an array call each
other with less of it. -/
theorem allFindKeysOnce (fuel : Nat) : AllFindKeysOnce fuel := by
  induction fuel with
  | zero =>
      exact ⟨fun _ _ => findsKeysOnce_error, fun _ _ _ _ => findsKeysOnce_error,
        fun _ _ _ _ => findsKeysOnce_error⟩
  | succ fuel ih => exact ⟨ih.value_succ, ih.members_succ, ih.items_succ⟩

end Reader

theorem keysOnce_of_read {t : Text} {v : Json} (h : read t = .ok v) : v.KeysOnce := by
  have found := mapError_eq_ok.mp h
  unfold Reader.document at found
  split at found
  · exact absurd found (by simp)
  · obtain ⟨⟨result, next⟩, one, found⟩ := bind_eq_ok.mp found
    simp only at found
    split at found
    · obtain rfl := Except.ok.inj found
      exact (Reader.allFindKeysOnce _).values _ _ result next one
    · exact absurd found (by simp [Reader.Cursor.refuse])

/-- The objects in a file have each key once, whatever its text is. -/
theorem keysOnce_of_ofFile {content : Bytes} {v : Json} (h : ofFile content = .ok v) :
    v.KeysOnce := by
  obtain ⟨_, _, parsed⟩ := bind_eq_ok.mp h
  exact keysOnce_of_read (mapError_eq_ok.mp parsed)

end Json

end ModulePackaging
