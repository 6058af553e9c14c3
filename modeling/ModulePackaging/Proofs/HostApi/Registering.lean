import ModulePackaging.Proofs.HostApi.Growing

/-!
# Registering once

A matrix takes the first list of entries that passes its checks and no other one, and these compare
each entry with the one before it only. That is enough for any two entries, however far apart: the
later one has the higher version, which comparing the two tells, and a flag that it lacks was
declared removed on the way to it, if flags that come back in between are followed too.

Main statement (`registerAll_once`).
-/

namespace ModulePackaging.Matrix

open Version

variable {m filled : Matrix} {entries : List ApiEntry} {calls : List (List ApiEntry)}
  {a b : ApiEntry} {flag : Text}

/-! ## Flags that go -/

/-- The flags of an entry that are missing from the next one are declared removed there. -/
def Declares (a b : ApiEntry) : Prop := ∀ flag ∈ a.flags, flag ∉ b.flags → flag ∈ b.removedFlags

theorem mem_flagsWithout {flags others : List Text} :
    flag ∈ flagsWithout flags others ↔ flag ∈ flags ∧ flag ∉ others := by
  simp [flagsWithout]

theorem declares_of_checkStep (h : checkStep a b = .ok ()) : Declares a b := by
  unfold checkStep at h
  obtain ⟨_, _, h⟩ := bind_eq_ok.mp h
  obtain ⟨_, h⟩ := guard_eq_ok.mp h
  obtain ⟨_, _, h⟩ := bind_eq_ok.mp h
  obtain ⟨_, h⟩ := guard_eq_ok.mp h
  intro flag here gone
  by_contra undeclared
  have left : flag ∈ flagsWithout (flagsWithout a.flags b.flags) b.removedFlags :=
    mem_flagsWithout.mpr ⟨mem_flagsWithout.mpr ⟨here, gone⟩, undeclared⟩
  rw [if_pos (by simp [List.ne_nil_of_mem left])] at h
  exact absurd h throw_ne_ok

/-- A flag that is missing later is declared removed on the way, where it was there last. -/
theorem removed_between {i j : Nat} (chain : entries.IsChain Declares) (before : i < j)
    (first : entries[i]? = some a) (second : entries[j]? = some b) (here : flag ∈ a.flags)
    (gone : flag ∉ b.flags) :
    ∃ k e, i < k ∧ k ≤ j ∧ entries[k]? = some e ∧ flag ∈ e.removedFlags := by
  -- From the later entry back to the one in front of it, as long as the flag is missing there.
  induction j generalizing b with
  | zero => exact absurd before (Nat.not_lt_zero i)
  | succ j ih =>
      have bound := (List.getElem?_eq_some_iff.mp second).1
      obtain ⟨c, middle⟩ : ∃ c, entries[j]? = some c :=
        ⟨_, List.getElem?_eq_getElem (Nat.lt_of_succ_lt bound)⟩
      have step : Declares c b := by
        obtain ⟨_, rfl⟩ := List.getElem?_eq_some_iff.mp middle
        obtain ⟨_, rfl⟩ := List.getElem?_eq_some_iff.mp second
        exact List.isChain_iff_getElem.mp chain j bound
      by_cases still : flag ∈ c.flags
      · exact ⟨j + 1, b, before, le_rfl, second, step flag still gone⟩
      · have apart : i ≠ j := by
          rintro rfl
          obtain rfl := Option.some.inj (first.symm.trans middle)
          exact still here
        obtain ⟨k, e, behind, upTo, found, removed⟩ := ih (by omega) middle still
        exact ⟨k, e, behind, by omega, found, removed⟩

/-! ## What is registered -/

/-- Entries of which a later one has a higher version, as comparing them tells, and in which a flag
stays until one declares it removed. -/
structure IsConsistent (entries : List ApiEntry) : Prop where
  ascending : ∀ (i j : Nat) (a b : ApiEntry), i < j → entries[i]? = some a →
    entries[j]? = some b → Below a.version b.version ∧ a.version.precedes b.version = .ok true
  additive : ∀ (i j : Nat) (a b : ApiEntry) (flag : Text), i < j → entries[i]? = some a →
    entries[j]? = some b → flag ∈ a.flags → flag ∉ b.flags →
      ∃ (k : Nat) (e : ApiEntry), i < k ∧ k ≤ j ∧ entries[k]? = some e ∧ flag ∈ e.removedFlags

/-- What is registered is consistent. -/
theorem isConsistent_of_register (standard : ∀ e ∈ entries, e.version.IsStandard)
    (h : Matrix.empty.register entries = .ok m) : IsConsistent entries := by
  obtain ⟨_, _, checked⟩ := checked_of_register h
  have leads : entries.Pairwise Leads := List.isChain_iff_pairwise.mp
    (isChain_of_checkAll none standard leads_of_checkStep checked)
  have chain : entries.IsChain Declares :=
    isChain_of_checkAll none standard (fun _ _ step => declares_of_checkStep step) checked
  constructor
  · intro i j a b before first second
    obtain ⟨small, rfl⟩ := List.getElem?_eq_some_iff.mp first
    obtain ⟨high, rfl⟩ := List.getElem?_eq_some_iff.mp second
    obtain ⟨here, also, below, free⟩ := List.pairwise_iff_getElem.mp leads i j small high before
    have lower := (below_iff here also).mpr below
    exact ⟨lower, (precedes_eq_true here also).mpr ⟨lower, free⟩⟩
  · intro i j a b flag before first second here gone
    exact removed_between chain before first second here gone

/-! ## Runs of calls -/

/-- The matrix after some lists were to be registered, one after the other. One that is refused
leaves it as it is. -/
def registerAll (m : Matrix) : List (List ApiEntry) → Matrix
  | [] => m
  | entries :: rest =>
    match m.register entries with
    | .ok filled => filled.registerAll rest
    | .error _ => m.registerAll rest

/-- Whether a matrix that is empty takes some entries. -/
def takes (entries : List ApiEntry) : Bool := (Matrix.empty.register entries).isOk

theorem takes_iff : takes entries = true ↔ Matrix.empty.register entries = .ok ⟨entries⟩ := by
  unfold takes
  constructor
  · intro taken
    cases h : Matrix.empty.register entries with
    | error e => simp [h, Except.isOk, Except.toBool] at taken
    | ok m => rw [← (checked_of_register h).1]
  · intro h
    rw [h]
    rfl

theorem registerAll_append (m : Matrix) (calls more : List (List ApiEntry)) :
    m.registerAll (calls ++ more) = (m.registerAll calls).registerAll more := by
  induction calls generalizing m with
  | nil => rfl
  | cons entries rest ih =>
      rw [List.cons_append, registerAll, registerAll]
      cases m.register entries <;> exact ih _

/-- A matrix that is filled refuses all entries. -/
theorem register_of_filled (some : m.entries ≠ []) (entries : List ApiEntry) :
    m.register entries = .error .populated := by
  rw [register, if_pos (by simp [some])]

theorem registerAll_of_filled (some : m.entries ≠ []) (calls : List (List ApiEntry)) :
    m.registerAll calls = m := by
  induction calls with
  | nil => rfl
  | cons entries rest ih =>
      rw [registerAll, register_of_filled some]
      exact ih

/-- An empty matrix is filled by the first list that it takes. -/
theorem registerAll_empty (calls : List (List ApiEntry)) :
    Matrix.empty.registerAll calls = ⟨(calls.find? takes).getD []⟩ := by
  induction calls with
  | nil => rfl
  | cons entries rest ih =>
      rw [registerAll, List.find?_cons]
      cases h : Matrix.empty.register entries with
      | error e =>
          have refused : takes entries = false := by rw [takes, h]; rfl
          rw [refused]
          exact ih
      | ok filled =>
          obtain ⟨all, some, _⟩ := checked_of_register h
          have taken : takes entries = true := by rw [takes, h]; rfl
          rw [taken]
          show filled.registerAll rest = ⟨entries⟩
          rw [registerAll_of_filled (by rw [all]; exact some), ← all]

/-- After any calls an empty matrix holds the first list that it took, or nothing if it took none;
the next call is taken exactly if none was before, and changes nothing if it is refused. Whatever is
taken is consistent. -/
theorem registerAll_once (standard : ∀ entries ∈ calls, ∀ e ∈ entries, e.version.IsStandard) :
    (Matrix.empty.registerAll calls).entries = (calls.find? takes).getD [] ∧
    (∀ next, (∃ filled, (Matrix.empty.registerAll calls).register next = .ok filled) ↔
      (∀ entries ∈ calls, takes entries = false) ∧ takes next = true) ∧
    (∀ next e, (Matrix.empty.registerAll calls).register next = .error e →
      Matrix.empty.registerAll (calls ++ [next]) = Matrix.empty.registerAll calls) ∧
    ∀ entries ∈ calls, takes entries = true → IsConsistent entries := by
  refine ⟨congrArg Matrix.entries (registerAll_empty calls), ?_, ?_, ?_⟩
  · intro next
    rw [registerAll_empty]
    cases found : calls.find? takes with
    | none =>
        have none : ∀ entries ∈ calls, takes entries = false := by
          simpa using List.find?_eq_none.mp found
        rw [Option.getD_none, takes_iff]
        constructor
        · rintro ⟨filled, taken⟩
          have all := (checked_of_register taken).1
          exact ⟨none, all ▸ taken⟩
        · exact fun taken => ⟨_, taken.2⟩
    | some list =>
        have taken : takes list = true := List.find?_some found
        have some : list ≠ [] := (checked_of_register (takes_iff.mp taken)).2.1
        rw [Option.getD_some, register_of_filled some]
        refine iff_of_false (by simp) fun none => ?_
        have refused := none.1 list (List.mem_of_find?_eq_some found)
        exact absurd (taken.symm.trans refused) (by simp)
  · intro next e refused
    rw [registerAll_append, registerAll, refused]
    rfl
  · intro entries member taken
    exact isConsistent_of_register (standard entries member) (takes_iff.mp taken)

end ModulePackaging.Matrix

namespace ModulePackaging.Sample

open Version

/-- Three versions of the host interface: a flag goes, and is back in the last one. -/
def returningEntries : List ApiEntry := [
  ⟨⟨1, 0, 0, ["rc", "2"], []⟩, ["attach", "notify"], true, true, []⟩,
  ⟨⟨1, 0, 0, ["rc", "10"], []⟩, ["attach"], false, true, ["notify"]⟩,
  ⟨⟨1, 0, 0, [], []⟩, ["notify"], false, false, ["attach"]⟩]

/-- Behind a list that is turned around, the three versions are taken, and the next list is not. -/
theorem registerAll_once_of_returning :
    (∀ entries ∈ [returningEntries.reverse, returningEntries], ∀ e ∈ entries,
      e.version.IsStandard) ∧
    (Matrix.empty.registerAll [returningEntries.reverse, returningEntries]).entries =
      returningEntries ∧
    Matrix.IsConsistent returningEntries ∧
    ¬ ∃ filled, (Matrix.empty.registerAll [returningEntries.reverse, returningEntries]).register
      hostEntries = .ok filled := by
  have standard : ∀ entries ∈ [returningEntries.reverse, returningEntries], ∀ e ∈ entries,
      e.version.IsStandard := by decide
  obtain ⟨holds, next, _, consistent⟩ := Matrix.registerAll_once standard
  have taken : Matrix.takes returningEntries = true := by decide +kernel
  have first : [returningEntries.reverse, returningEntries].find? Matrix.takes =
      some returningEntries := by decide +kernel
  rw [first] at holds
  refine ⟨standard, holds, consistent _ (by simp) taken, fun further => ?_⟩
  have refused := ((next hostEntries).mp further).1 returningEntries (by simp)
  exact absurd (taken.symm.trans refused) (by simp)

end ModulePackaging.Sample
