import ModulePackaging.Proofs.HostApi.Changes

/-!
# Changes that are added up

The changes between neighbouring versions lead from the flags of one version to those of any later
one, though a flag may come and go in between. What the two versions differ in is what is left of
them, and the way back is the same with what comes and what goes exchanged.

Main statement (`changes_compose`).
-/

namespace ModulePackaging

namespace FeatureDiff

variable {a b c : ApiEntry} {d : FeatureDiff} {flags : List Text} {flag : Text}
  {entries : List ApiEntry}

/-! ## Flags that change -/

/-- The flags behind a change: what it removes goes, then what it adds comes. -/
def apply (flags : List Text) (d : FeatureDiff) : List Text :=
  flagSet (flagsWithout flags d.removed ++ d.added)

/-- The flags behind some changes, one after the other. -/
def applyAll (flags : List Text) (changes : List FeatureDiff) : List Text :=
  changes.foldl apply flags

/-- The same change backwards. -/
def inverse (d : FeatureDiff) : FeatureDiff := ⟨d.newer, d.older, d.removed, d.added⟩

theorem mem_apply :
    flag ∈ apply flags d ↔ (flag ∈ flags ∧ flag ∉ d.removed) ∨ flag ∈ d.added := by
  rw [apply, mem_flagSet, List.mem_append, Matrix.mem_flagsWithout]

theorem mem_added_between :
    flag ∈ (between a b).added ↔ flag ∉ a.flags ∧ flag ∈ b.flags :=
  Matrix.mem_flagsWithout.trans and_comm

theorem mem_removed_between : flag ∈ (between a b).removed ↔ flag ∈ a.flags ∧ flag ∉ b.flags :=
  Matrix.mem_flagsWithout

/-- The change from one entry to another one leads to the flags of that. -/
theorem apply_between (set : flagSet b.flags = b.flags) :
    apply a.flags (between a b) = b.flags := by
  have ascending : b.flags.Pairwise (· < ·) := set ▸ ascending_flagSet b.flags
  apply (ascending_flagSet _).eq_of_mem_iff ascending
  intro flag
  show flag ∈ apply a.flags (between a b) ↔ flag ∈ b.flags
  rw [mem_apply, mem_added_between, mem_removed_between]
  -- a flag that stays was there and is not removed, and one that comes is added
  constructor
  · rintro (⟨here, kept⟩ | ⟨_, new⟩)
    · by_contra gone
      exact kept ⟨here, gone⟩
    · exact new
  · intro there
    by_cases here : flag ∈ a.flags
    · exact .inl ⟨here, fun removed => removed.2 there⟩
    · exact .inr ⟨here, there⟩

/-! ## From one entry to a later one -/

/-- The changes from each entry to the next. -/
def steps (entries : List ApiEntry) : List FeatureDiff :=
  (entries.zip entries.tail).map fun pair => between pair.1 pair.2

theorem length_steps (some : entries ≠ []) : (steps entries).length + 1 = entries.length := by
  have positive : 0 < entries.length := List.length_pos_iff.mpr some
  rw [steps, List.length_map, List.length_zip, List.length_tail]
  omega

theorem getElem?_steps {i : Nat} (first : entries[i]? = some a)
    (second : entries[i + 1]? = some b) : (steps entries)[i]? = some (between a b) := by
  have pair : (entries.zip entries.tail)[i]? = some (a, b) :=
    List.getElem?_zip_eq_some.mpr ⟨first, by rw [List.getElem?_tail, second]⟩
  rw [steps, List.getElem?_map, pair]
  rfl

/-- The changes from one entry up to a later one lead from its flags to those of that. -/
theorem applyAll_steps (sets : ∀ e ∈ entries, flagSet e.flags = e.flags) {i n : Nat}
    (first : entries[i]? = some a) (last : entries[i + n]? = some b) :
    applyAll a.flags (((steps entries).drop i).take n) = b.flags := by
  -- The last change is split off, since it is the one whose end is known.
  induction n generalizing b with
  | zero =>
      obtain rfl : a = b := Option.some.inj (first.symm.trans last)
      rw [List.take_zero]
      rfl
  | succ n ih =>
      have bound := (List.getElem?_eq_some_iff.mp last).1
      obtain ⟨c, before⟩ : ∃ c, entries[i + n]? = some c :=
        ⟨_, List.getElem?_eq_getElem (by omega)⟩
      have step : ((steps entries).drop i)[n]? = some (between c b) := by
        rw [List.getElem?_drop]
        exact getElem?_steps before last
      rw [List.take_add_one, step, applyAll, List.foldl_append]
      show apply (applyAll a.flags _) (between c b) = b.flags
      rw [ih before]
      exact apply_between (sets b (List.mem_of_getElem? last))

end FeatureDiff

namespace Matrix

open FeatureDiff Version

variable {m : Matrix} {entries : List ApiEntry} {a b : ApiEntry}
  (standard : ∀ e ∈ entries, e.version.IsStandard)
  (registered : Matrix.empty.register entries = .ok m)

include standard registered

/-- The difference of two versions that are registered is that of their entries. -/
theorem diff_of_register (first : a ∈ entries) (second : b ∈ entries) :
    m.diff a.version b.version = .ok (between a b) := by
  unfold diff
  rw [get_of_register standard registered first, get_of_register standard registered second]
  rfl

/-- The changes that are reported lead, one after the other, from the flags of an entry to those of
any later one. The difference of the two versions leads there at once: it adds what is in the later
entry alone and removes what is in the earlier one alone. The difference the other way round is the
same backwards. -/
theorem changes_compose (sets : ∀ e ∈ entries, flagSet e.flags = e.flags) :
    ∃ changes, m.changes = .ok changes ∧ changes.length + 1 = m.entries.length ∧
      ∀ i j a b, i ≤ j → m.entries[i]? = some a → m.entries[j]? = some b →
        applyAll a.flags ((changes.drop i).take (j - i)) = b.flags ∧
        ∃ net, m.diff a.version b.version = .ok net ∧
          m.diff b.version a.version = .ok net.inverse ∧ apply a.flags net = b.flags ∧
          ∀ flag, (flag ∈ net.added ↔ flag ∉ a.flags ∧ flag ∈ b.flags) ∧
            (flag ∈ net.removed ↔ flag ∈ a.flags ∧ flag ∉ b.flags) := by
  obtain ⟨all, some, _⟩ := checked_of_register registered
  rw [all]
  refine ⟨_, changes_of_register standard registered, length_steps some, ?_⟩
  intro i j a b upward first last
  obtain ⟨n, rfl⟩ := Nat.exists_eq_add_of_le upward
  have here := List.mem_of_getElem? first
  have there := List.mem_of_getElem? last
  refine ⟨?_, between a b, diff_of_register standard registered here there,
    diff_of_register standard registered there here, apply_between (sets b there),
    fun flag => ⟨mem_added_between, mem_removed_between⟩⟩
  rw [Nat.add_sub_cancel_left]
  exact applyAll_steps sets first last

end Matrix

namespace Sample

open FeatureDiff

/-- Three versions: a flag goes and comes back while another one comes and goes. -/
def wanderingEntries : List ApiEntry := [
  ⟨⟨1, 0, 0, [], []⟩, ["attach", "notify"], true, true, []⟩,
  ⟨⟨1, 1, 0, ["rc", "2"], []⟩, ["detach", "notify"], false, true, ["attach"]⟩,
  ⟨⟨1, 1, 0, [], []⟩, ["attach", "notify", "v2"], false, true, ["detach"]⟩]

/-- From the first version to the last one only one flag is new. -/
theorem changes_compose_of_wandering :
    (∀ e ∈ wanderingEntries, e.version.IsStandard) ∧
    (∀ e ∈ wanderingEntries, flagSet e.flags = e.flags) ∧
    Matrix.empty.register wanderingEntries = .ok ⟨wanderingEntries⟩ ∧
    ∃ changes net, Matrix.changes ⟨wanderingEntries⟩ = .ok changes ∧ changes.length = 2 ∧
      applyAll ["attach", "notify"] changes = ["attach", "notify", "v2"] ∧
      Matrix.diff ⟨wanderingEntries⟩ ⟨1, 0, 0, [], []⟩ ⟨1, 1, 0, [], []⟩ = .ok net ∧
      ("v2" : Text) ∈ net.added ∧ ("attach" : Text) ∉ net.added := by
  have standard : ∀ e ∈ wanderingEntries, e.version.IsStandard := by decide
  have sets : ∀ e ∈ wanderingEntries, flagSet e.flags = e.flags := by decide +kernel
  have registered : Matrix.empty.register wanderingEntries = .ok ⟨wanderingEntries⟩ := by rfl
  obtain ⟨changes, report, length, composed⟩ :=
    Matrix.changes_compose standard registered sets
  have two : changes.length = 2 := Nat.succ.inj length
  obtain ⟨led, net, differs, _, _, told⟩ := composed 0 2 _ _ (by decide) rfl rfl
  rw [List.drop_zero, List.take_of_length_le (by omega)] at led
  exact ⟨standard, sets, registered, changes, net, report, two, led, differs,
    (told "v2").1.mpr (by decide), fun added => ((told "attach").1.mp added).1 (by decide)⟩

end Sample

end ModulePackaging
