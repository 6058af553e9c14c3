import Mathlib.Data.List.Chain
import ModulePackaging.HostApi.Matrix
import ModulePackaging.Proofs.Precedence

/-!
# Looking host versions up

A registered matrix is strictly ascending, so halving finds in it what a scan of its entries finds:
the one entry of a version, and for a request the entry that stands highest up to it. The one thing
in the way is a number of a pre-release that is too long to be compared.
-/

namespace ModulePackaging.Matrix

open Version

variable {m : Matrix} {entries : List ApiEntry} {v : Version}

/-! ## What registering checks -/

/-- The entries stand in ascending order, no two in one place. -/
def IsAscending (entries : List ApiEntry) : Prop :=
  entries.Pairwise fun a b => a.version.precedence < b.version.precedence

/-- An entry that passes the check against the one before it stands above it. -/
theorem lt_of_checkStep {a b : ApiEntry} (standard : a.version.IsStandard)
    (also : b.version.IsStandard) (h : checkStep a b = .ok ()) :
    a.version.precedence < b.version.precedence := by
  unfold checkStep at h
  obtain ⟨same, ranked, h⟩ := bind_eq_ok.mp h
  obtain ⟨new, h⟩ := guard_eq_ok.mp h
  obtain ⟨below, ordered, h⟩ := bind_eq_ok.mp h
  obtain ⟨upwards, _⟩ := guard_eq_ok.mp h
  have rank := (sameRank_agrees also standard).eq_of_ok (mapError_eq_ok.mp ranked)
  have order := (precedes_agrees also standard).eq_of_ok (mapError_eq_ok.mp ordered)
  obtain rfl := Except.ok.inj rank
  obtain rfl := Except.ok.inj order
  rw [decide_eq_true_eq] at new upwards
  exact lt_of_le_of_ne (not_lt.mp upwards) (Ne.symm new)

/-- Checking each entry against the one before it makes a chain of what the check tells. -/
theorem isChain_of_checkAll {R : ApiEntry → ApiEntry → Prop} (previous : Option ApiEntry)
    (standard : ∀ e ∈ previous.toList ++ entries, e.version.IsStandard)
    (tells : ∀ {a b : ApiEntry}, a.version.IsStandard → b.version.IsStandard →
      checkStep a b = .ok () → R a b)
    (h : checkAll previous entries = .ok ()) : (previous.toList ++ entries).IsChain R := by
  induction entries generalizing previous with
  | nil =>
      cases previous with
      | none => exact .nil
      | some p => exact .singleton p
  | cons e rest ih =>
      rw [checkAll] at h
      obtain ⟨_, _, h⟩ := bind_eq_ok.mp h
      cases previous with
      | none => exact ih (some e) standard h
      | some p =>
          obtain ⟨_, step, h⟩ := bind_eq_ok.mp h
          obtain ⟨first, others⟩ := List.forall_mem_cons.mp standard
          have above := tells first (others e List.mem_cons_self) step
          exact List.isChain_cons_cons.mpr ⟨above, ih (some e) others h⟩

/-- What is registered is all of the entries, which were checked one by one. -/
theorem checked_of_register (h : Matrix.empty.register entries = .ok m) :
    m.entries = entries ∧ entries ≠ [] ∧ checkAll none entries = .ok () := by
  unfold register at h
  split at h
  · exact absurd h (by simp)
  · split at h
    · exact absurd h (by simp)
    · rename_i some
      obtain ⟨_, checked, h⟩ := bind_eq_ok.mp h
      obtain rfl := Except.ok.inj h
      exact ⟨rfl, by simpa using some, checked⟩

/-- What is registered is all of the entries, in ascending order. -/
theorem register_gives (standard : ∀ e ∈ entries, e.version.IsStandard)
    (h : Matrix.empty.register entries = .ok m) :
    m.entries = entries ∧ entries ≠ [] ∧ IsAscending entries := by
  obtain ⟨all, some, checked⟩ := checked_of_register h
  refine ⟨all, some, ?_⟩
  exact List.isChain_iff_pairwise.mp (isChain_of_checkAll none standard lt_of_checkStep checked)

/-- In an ascending list what comes later stands above. -/
theorem IsAscending.lt {i j : Nat} {a b : ApiEntry} (h : IsAscending entries) (before : i < j)
    (first : entries[i]? = some a) (second : entries[j]? = some b) :
    a.version.precedence < b.version.precedence := by
  obtain ⟨small, rfl⟩ := List.getElem?_eq_some_iff.mp first
  obtain ⟨high, rfl⟩ := List.getElem?_eq_some_iff.mp second
  exact List.pairwise_iff_getElem.mp h i j small high before

theorem IsAscending.le {i j : Nat} {a b : ApiEntry} (h : IsAscending entries) (upTo : i ≤ j)
    (first : entries[i]? = some a) (second : entries[j]? = some b) :
    a.version.precedence ≤ b.version.precedence := by
  rcases Nat.eq_or_lt_of_le upTo with rfl | before
  · exact Option.some.inj (first.symm.trans second) ▸ le_rfl
  · exact (h.lt before first second).le

/-- Entries in one place are one entry. -/
theorem IsAscending.unique {a b : ApiEntry} (h : IsAscending entries) (here : a ∈ entries)
    (there : b ∈ entries) (same : a.version.precedence = b.version.precedence) : a = b := by
  obtain ⟨i, first⟩ := List.mem_iff_getElem?.mp here
  obtain ⟨j, second⟩ := List.mem_iff_getElem?.mp there
  rcases lt_trichotomy i j with before | rfl | behind
  · exact absurd same (ne_of_lt (h.lt before first second))
  · exact Option.some.inj (first.symm.trans second)
  · exact absurd same (ne_of_gt (h.lt behind second first))

/-- The oldest entry of an ascending list is the first one, and the newest is the last. -/
theorem exists_ends (ascending : IsAscending m.entries) (some : m.entries ≠ []) :
    ∃ oldest newest, m.oldest = .ok oldest ∧ m.newest = .ok newest ∧
      m.entries[0]? = .some oldest ∧ newest ∈ m.entries ∧
      (∀ e ∈ m.entries, oldest.version.precedence ≤ e.version.precedence) ∧
      ∀ e ∈ m.entries, e.version.precedence ≤ newest.version.precedence := by
  obtain ⟨oldest, rest, form⟩ := List.exists_cons_of_ne_nil some
  have first : m.entries[0]? = .some oldest := by rw [form]; rfl
  have last : m.entries.getLast? = .some (m.entries.getLast some) :=
    List.getLast?_eq_some_getLast some
  refine ⟨oldest, m.entries.getLast some, ?_, ?_, first, List.getLast_mem some, ?_, ?_⟩
  · rw [Matrix.oldest, form]
    rfl
  · rw [Matrix.newest, last]
  · intro e member
    obtain ⟨i, found⟩ := List.mem_iff_getElem?.mp member
    exact ascending.le (Nat.zero_le i) first found
  · intro e member
    obtain ⟨i, found⟩ := List.mem_iff_getElem?.mp member
    have bound := (List.getElem?_eq_some_iff.mp found).1
    rw [List.getLast?_eq_getElem?] at last
    exact ascending.le (by omega) found last

/-! ## Halving -/

/-- The place in front of which no entry passes a test, and from which on all do. -/
def IsSplit (entries : List ApiEntry) (test : ApiEntry → Prop) (place : Nat) : Prop :=
  place ≤ entries.length ∧ ∀ i e, entries[i]? = some e → (test e ↔ place ≤ i)

/-- Halving ends where a test is refused, or between an entry that did not pass and one that did. -/
theorem firstPlace_ends {passes : Version → Except VersionError Bool} {fuel low high : Nat}
    (enough : high < low + fuel) (order : low ≤ high) (inside : high ≤ m.entries.length) :
    (∃ e ∈ m.entries, ∃ f, passes e.version = .error f ∧
      m.firstPlace passes fuel low high = .error f) ∨
    ∃ place, m.firstPlace passes fuel low high = .ok place ∧ low ≤ place ∧ place ≤ high ∧
      (∀ e, low < place → m.entries[place - 1]? = some e → passes e.version = .ok false) ∧
      ∀ e, place < high → m.entries[place]? = some e → passes e.version = .ok true := by
  -- The entry in the middle is tested, and bounds the stretch of the next round on one side.
  induction fuel generalizing low high with
  | zero => omega
  | succ fuel ih =>
      rw [firstPlace]
      by_cases open' : low < high
      · have middle : (low + high) / 2 < m.entries.length := by omega
        have found : m.entries[(low + high) / 2]? = some m.entries[(low + high) / 2] :=
          List.getElem?_eq_getElem middle
        simp only [if_pos open', entryAt?, found]
        cases told : passes m.entries[(low + high) / 2].version with
        | error f => exact .inl ⟨_, List.getElem_mem middle, f, told, rfl⟩
        | ok passed =>
            cases passed with
            | true =>
                rcases @ih low ((low + high) / 2) (by omega) (by omega) (by omega) with
                  refused | ⟨place, ended, from', upTo, before, behind⟩
                · exact .inl refused
                refine .inr ⟨place, ended, from', by omega, before, fun e early there => ?_⟩
                rcases Nat.eq_or_lt_of_le upTo with rfl | inner
                · obtain rfl := Option.some.inj (found.symm.trans there)
                  exact told
                · exact behind e inner there
            | false =>
                rcases @ih ((low + high) / 2 + 1) high (by omega) (by omega) inside with
                  refused | ⟨place, ended, from', upTo, before, behind⟩
                · exact .inl refused
                refine .inr ⟨place, ended, by omega, upTo, fun e late there => ?_, behind⟩
                rcases Nat.eq_or_lt_of_le from' with rfl | inner
                · obtain rfl := Option.some.inj (found.symm.trans there)
                  exact told
                · exact before e inner there
      · obtain rfl : low = high := by omega
        rw [if_neg open']
        exact .inr ⟨low, rfl, le_rfl, le_rfl, fun _ later => absurd later (lt_irrefl _),
          fun _ later => absurd later (lt_irrefl _)⟩

section Splits

variable {test : ApiEntry → Prop} (ascending : IsAscending entries)
  (upwards : ∀ a b : ApiEntry, a.version.precedence < b.version.precedence → test a → test b)

include ascending upwards

/-- A place between an entry that does not pass and one that does splits the entries. -/
theorem isSplit_of_beside {place : Nat} (inside : place ≤ entries.length)
    (before : ∀ e, 0 < place → entries[place - 1]? = some e → ¬ test e)
    (behind : ∀ e, entries[place]? = some e → test e) : IsSplit entries test place := by
  refine ⟨inside, fun i e found => ⟨fun passed => ?_, fun late => ?_⟩⟩
  · by_contra early
    have last : entries[place - 1]? = some entries[place - 1] := List.getElem?_eq_getElem (by omega)
    refine before _ (by omega) last ?_
    rcases Nat.eq_or_lt_of_le (show i ≤ place - 1 by omega) with rfl | earlier
    · exact Option.some.inj (found.symm.trans last) ▸ passed
    · exact upwards _ _ (ascending.lt earlier found last) passed
  · rcases Nat.eq_or_lt_of_le late with rfl | later
    · exact behind e found
    · have bound := (List.getElem?_eq_some_iff.mp found).1
      have first : entries[place]? = some entries[place] := List.getElem?_eq_getElem (by omega)
      exact upwards _ _ (ascending.lt later first found) (behind _ first)

/-- The first entry that passes splits the entries. -/
theorem exists_split [DecidablePred test] : ∃ place, IsSplit entries test place := by
  refine ⟨entries.findIdx (test ·), isSplit_of_beside ascending upwards List.findIdx_le_length
    (fun e some found => ?_) fun e found => ?_⟩
  · obtain ⟨_, rfl⟩ := List.getElem?_eq_some_iff.mp found
    simpa using List.not_of_lt_findIdx (show _ - 1 < entries.findIdx (test ·) by omega)
  · obtain ⟨bound, rfl⟩ := List.getElem?_eq_some_iff.mp found
    simpa using List.findIdx_getElem (w := bound)

end Splits

/-- Halving finds the place that splits the entries, if each comparison tells the test. -/
theorem search_agrees {passes : Version → Except VersionError Bool} {test : ApiEntry → Prop}
    [DecidablePred test] {refused : VersionError → Prop} (ascending : IsAscending m.entries)
    (upwards : ∀ a b : ApiEntry, a.version.precedence < b.version.precedence → test a → test b)
    (tells : ∀ e ∈ m.entries, EqUnless refused (passes e.version) (.ok (decide (test e)))) :
    ∃ place, IsSplit m.entries test place ∧ EqUnless refused
      (m.firstPlace passes (m.entries.length + 1) 0 m.entries.length) (.ok place) := by
  have told : ∀ {i : Nat} {e : ApiEntry} {passed : Bool}, m.entries[i]? = some e →
      passes e.version = .ok passed → decide (test e) = passed := by
    intro i e passed found given
    exact Except.ok.inj ((tells e (List.mem_of_getElem? found)).eq_of_ok given)
  rcases @firstPlace_ends m passes (m.entries.length + 1) 0 m.entries.length (by omega)
      (Nat.zero_le _) le_rfl with
    ⟨e, member, f, failed, ended⟩ | ⟨place, ended, _, inside, before, behind⟩
  · obtain ⟨place, split⟩ := exists_split ascending upwards
    refine ⟨place, split, .inr ⟨f, ?_, ended⟩⟩
    rcases tells e member with given | ⟨f', kind, same⟩
    · exact absurd (failed.symm.trans given) (by simp)
    · exact Except.error.inj (failed.symm.trans same) ▸ kind
  · refine ⟨place, isSplit_of_beside ascending upwards inside (fun e some found => ?_)
      fun e found => ?_, .of_eq ended⟩
    · exact of_decide_eq_false (told found (before e some found))
    · have bound := (List.getElem?_eq_some_iff.mp found).1
      exact of_decide_eq_true (told found (behind e bound found))

/-! ## Finding the entry of a version -/

/-- The refusal to compare a requested version with one of the entries. -/
def CannotLookUp (entries : List ApiEntry) (v : Version) (e : VersionError) : Prop :=
  ∃ entry ∈ entries, v.CannotCompare entry.version e ∨ entry.version.CannotCompare v e

/-- The same refusal as an answer of the matrix. -/
def CannotAnswer (entries : List ApiEntry) (v : Version) (e : MatrixError) : Prop :=
  ∃ f, e = .badVersion f ∧ CannotLookUp entries v f

theorem cannotAnswer {α : Type} {x y : Except VersionError α}
    (h : EqUnless (CannotLookUp entries v) x y) :
    EqUnless (CannotAnswer entries v) (x.mapError .badVersion) (y.mapError .badVersion) :=
  h.mapError fun f refused => ⟨f, rfl, refused⟩

/-- What a scan finds for a version: the entry that stands in its place, or nothing if none does. -/
def IsFound (entries : List ApiEntry) (v : Version) : Option ApiEntry → Prop
  | some e => e ∈ entries ∧ e.version.precedence = v.precedence
  | none => ∀ e ∈ entries, e.version.precedence ≠ v.precedence

/-- What a request for a version resolves to by a scan of the entries. -/
inductive IsAnswer (entries : List ApiEntry) (v : Version) : Except MatrixError Target → Prop
  /-- The entry in the place of the request. -/
  | exact {e : ApiEntry} (member : e ∈ entries)
      (same : e.version.precedence = v.precedence) : IsAnswer entries v (.ok ⟨v, e, true, false⟩)
  /-- All entries stand above the request. -/
  | tooOld {oldest : ApiEntry} (member : oldest ∈ entries)
      (least : ∀ e ∈ entries, oldest.version.precedence ≤ e.version.precedence)
      (below : ∀ e ∈ entries, v.precedence < e.version.precedence) :
      IsAnswer entries v (.error (.tooOld v oldest.version))
  /-- All entries stand below the request: the newest one is taken. -/
  | beyond {newest : ApiEntry} (member : newest ∈ entries)
      (greatest : ∀ e ∈ entries, e.version.precedence ≤ newest.version.precedence)
      (above : ∀ e ∈ entries, e.version.precedence < v.precedence) :
      IsAnswer entries v (.ok ⟨v, newest, false, true⟩)
  /-- No entry stands in the place of the request, and the greatest one below it is taken. -/
  | between {e top : ApiEntry} (member : e ∈ entries)
      (below : e.version.precedence < v.precedence)
      (greatest : ∀ a ∈ entries,
        a.version.precedence ≤ e.version.precedence ∨ v.precedence < a.version.precedence)
      (inside : top ∈ entries) (above : v.precedence < top.version.precedence)
      (compatible : e.forwardCompatible = true) : IsAnswer entries v (.ok ⟨v, e, false, false⟩)
  /-- The greatest entry below the request would be taken, and does not allow it. -/
  | incompatible {e top : ApiEntry} (member : e ∈ entries)
      (below : e.version.precedence < v.precedence)
      (greatest : ∀ a ∈ entries,
        a.version.precedence ≤ e.version.precedence ∨ v.precedence < a.version.precedence)
      (inside : top ∈ entries) (above : v.precedence < top.version.precedence)
      (limited : e.forwardCompatible = false) :
      IsAnswer entries v (.error (.notForwardCompatible v e.version))

/-- The entry that a request resolves to is the greatest one that is not above the request. -/
theorem IsAnswer.greatest {target : Target} (h : IsAnswer entries v (.ok target)) :
    target.entry ∈ entries ∧ target.entry.version.precedence ≤ v.precedence ∧
      ∀ e ∈ entries, e.version.precedence ≤ v.precedence →
        e.version.precedence ≤ target.entry.version.precedence := by
  cases h with
  | exact member same =>
      refine ⟨member, same.le, fun e _ atMost => ?_⟩
      show e.version.precedence ≤ _
      rwa [same]
  | beyond member greatest above =>
      exact ⟨member, (above _ member).le, fun e inside _ => greatest e inside⟩
  | between member below greatest =>
      refine ⟨member, below.le, fun e inside atMost => ?_⟩
      rcases greatest e inside with upTo | beyond
      · exact upTo
      · exact absurd beyond (not_lt.mpr atMost)

namespace IsSplit

variable {place : Nat} {e : ApiEntry}

/-- If all entries stand in front of the place of a version, none stands in its place. -/
theorem isFound_of_end (split : IsSplit entries (fun e => v.precedence ≤ e.version.precedence) place)
    (none : entries[place]? = none) : IsFound entries v .none := by
  intro e member same
  obtain ⟨i, there⟩ := List.mem_iff_getElem?.mp member
  have late := (split.2 i e there).mp same.ge
  have early := (List.getElem?_eq_some_iff.mp there).1
  have outside := List.getElem?_eq_none_iff.mp none
  omega

/-- If the first entry that is not below a version is above it, none stands in its place: those
behind are above it too. -/
theorem isFound_of_ne (ascending : IsAscending entries)
    (split : IsSplit entries (fun e => v.precedence ≤ e.version.precedence) place)
    (here : entries[place]? = some e) (other : e.version.precedence ≠ v.precedence) :
    IsFound entries v .none := by
  intro a member same
  have least : v.precedence < e.version.precedence :=
    lt_of_le_of_ne ((split.2 place e here).mpr le_rfl) (Ne.symm other)
  obtain ⟨i, there⟩ := List.mem_iff_getElem?.mp member
  have late : place ≤ i := (split.2 i a there).mp same.ge
  rcases Nat.eq_or_lt_of_le late with rfl | later
  · obtain rfl := Option.some.inj (here.symm.trans there)
    exact other same
  · have above := ascending.lt later here there
    rw [same] at above
    exact lt_asymm least above

/-- The entry in front of those above a version is the greatest of all the others. -/
theorem exists_greatest {oldest : ApiEntry} (ascending : IsAscending entries)
    (split : IsSplit entries (fun e => v.precedence < e.version.precedence) place)
    (first : entries[0]? = some oldest) (reached : oldest.version.precedence ≤ v.precedence) :
    ∃ e, entries[place - 1]? = some e ∧ e.version.precedence ≤ v.precedence ∧
      ∀ a ∈ entries,
        a.version.precedence ≤ e.version.precedence ∨ v.precedence < a.version.precedence := by
  obtain ⟨inside, split⟩ := split
  have positive : 0 < place := by
    by_contra zero
    exact absurd ((split 0 oldest first).mpr (by omega)) (not_lt.mpr reached)
  have bound : place - 1 < entries.length := by omega
  obtain ⟨e, here⟩ : ∃ e, entries[place - 1]? = some e := ⟨_, List.getElem?_eq_getElem bound⟩
  refine ⟨e, here, ?_, fun a there => ?_⟩
  · exact not_lt.mp fun above => absurd ((split _ e here).mp above) (by omega)
  · obtain ⟨i, found⟩ := List.mem_iff_getElem?.mp there
    by_cases late : place ≤ i
    · exact .inr ((split i a found).mpr late)
    · rcases Nat.eq_or_lt_of_le (show i ≤ place - 1 by omega) with rfl | early
      · exact .inl (Option.some.inj (here.symm.trans found) ▸ le_rfl)
      · exact .inl (ascending.lt early found here).le

end IsSplit

section Lookups

variable (ascending : IsAscending m.entries) (standard : ∀ e ∈ m.entries, e.version.IsStandard)
  (request : v.IsStandard)

include ascending standard request

/-- Looking an entry up by halving finds what a scan finds. -/
theorem find?_agrees : ∃ found, IsFound m.entries v found ∧
    EqUnless (CannotLookUp m.entries v) (m.find? v) (.ok found) := by
  obtain ⟨place, split, agrees⟩ : ∃ place,
      IsSplit m.entries (fun e => v.precedence ≤ e.version.precedence) place ∧
        EqUnless (CannotLookUp m.entries v) (m.placeFrom v) (.ok place) := by
    refine search_agrees ascending (fun a b above passed => passed.trans above.le) ?_
    intro e member
    refine ((precedes_agrees (standard e member) request).mono fun _ refused =>
      ⟨e, member, .inr refused⟩).bind_ok (.of_eq (congrArg Except.ok ?_))
    rw [← decide_not]
    exact decide_eq_decide.mpr not_lt
  cases here : m.entryAt? place with
  | none =>
      refine ⟨none, split.isFound_of_end here, agrees.bind_ok ?_⟩
      rw [here]
      exact .refl _
  | some e =>
      have member : e ∈ m.entries := List.mem_of_getElem? here
      have told := (sameRank_agrees (standard e member) request).mono fun _ refused =>
        (⟨e, member, .inr refused⟩ : CannotLookUp m.entries v _)
      by_cases same : e.version.precedence = v.precedence
      · refine ⟨some e, ⟨member, same⟩, agrees.bind_ok ?_⟩
        rw [decide_eq_true same] at told
        rw [here]
        exact told.bind_ok (.refl _)
      · refine ⟨none, split.isFound_of_ne ascending here same, agrees.bind_ok ?_⟩
        rw [decide_eq_false same] at told
        rw [here]
        exact told.bind_ok (.refl _)

/-- Between the oldest and the newest version a request resolves to what a scan gives. -/
theorem resolveWithin_agrees {oldest newest : ApiEntry} (first : m.entries[0]? = some oldest)
    (last : newest ∈ m.entries) (reached : oldest.version.precedence ≤ v.precedence)
    (within : v.precedence ≤ newest.version.precedence) :
    ∃ answer, IsAnswer m.entries v answer ∧
      EqUnless (CannotAnswer m.entries v) (m.resolveWithin v) answer := by
  obtain ⟨place, split, agrees⟩ : ∃ place,
      IsSplit m.entries (fun e => v.precedence < e.version.precedence) place ∧
        EqUnless (CannotLookUp m.entries v) (m.placeAfter v) (.ok place) :=
    search_agrees ascending (fun a b above passed => passed.trans above) fun e member =>
      (precedes_agrees request (standard e member)).mono fun _ refused =>
        ⟨e, member, .inl refused⟩
  obtain ⟨e, here, atMost, greatest⟩ := split.exists_greatest ascending first reached
  have member : e ∈ m.entries := List.mem_of_getElem? here
  have told := cannotAnswer ((sameRank_agrees (standard e member) request).mono
    fun _ refused => (⟨e, member, .inr refused⟩ : CannotLookUp m.entries v _))
  have placed := cannotAnswer agrees
  have entry : m.entryAt? (place - 1) = some e := here
  unfold resolveWithin
  by_cases same : e.version.precedence = v.precedence
  · refine ⟨_, .exact member same, placed.bind_ok ?_⟩
    rw [decide_eq_true same] at told
    rw [entry]
    exact told.bind_ok (.refl _)
  · have below := lt_of_le_of_ne atMost same
    have above : v.precedence < newest.version.precedence := by
      rcases greatest newest last with upTo | above
      · exact absurd (within.trans upTo) (not_le.mpr below)
      · exact above
    rw [decide_eq_false same] at told
    cases compatible : e.forwardCompatible with
    | true =>
        refine ⟨_, .between member below greatest last above compatible, placed.bind_ok ?_⟩
        rw [entry]
        refine told.bind_ok ?_
        rw [compatible]
        exact .refl _
    | false =>
        refine ⟨_, .incompatible member below greatest last above compatible, placed.bind_ok ?_⟩
        rw [entry]
        refine told.bind_ok ?_
        rw [compatible]
        exact .refl _

/-- A request resolves to what a scan gives. -/
theorem resolve_agrees (some : m.entries ≠ []) : ∃ answer, IsAnswer m.entries v answer ∧
    EqUnless (CannotAnswer m.entries v) (m.resolve v) answer := by
  obtain ⟨oldest, newest, toOldest, toNewest, first, newestIn, least, greatest⟩ :=
    exists_ends ascending some
  have oldestIn : oldest ∈ m.entries := List.mem_of_getElem? first
  -- The request is compared with the first entry, then with the last, and only then searched.
  have below := cannotAnswer ((precedes_agrees request (standard oldest oldestIn)).mono
    fun _ refused => (⟨oldest, oldestIn, .inl refused⟩ : CannotLookUp m.entries v _))
  have above := cannotAnswer ((follows_agrees request (standard _ newestIn)).mono
    fun _ refused => (⟨_, newestIn, .inl refused⟩ : CannotLookUp m.entries v _))
  unfold resolve
  rw [toOldest, toNewest]
  by_cases tooOld : v.precedence < oldest.version.precedence
  · rw [decide_eq_true tooOld] at below
    refine ⟨_, .tooOld oldestIn least fun e member => tooOld.trans_le (least e member), ?_⟩
    exact below.bind_ok (.refl _)
  · rw [decide_eq_false tooOld] at below
    by_cases beyond : newest.version.precedence < v.precedence
    · rw [decide_eq_true beyond] at above
      refine ⟨_, .beyond newestIn greatest fun e member => (greatest e member).trans_lt beyond, ?_⟩
      exact below.bind_ok (above.bind_ok (.refl _))
    · rw [decide_eq_false beyond] at above
      obtain ⟨answer, isAnswer, agrees⟩ := resolveWithin_agrees ascending standard request first
        newestIn (not_lt.mp tooOld) (not_lt.mp beyond)
      exact ⟨answer, isAnswer, below.bind_ok (above.bind_ok agrees)⟩

end Lookups

/-- Looking versions up in a registered matrix is scanning it: the entry of a version is the one in
its place, and a request resolves to that entry, or to the greatest one below it as far as this
allows it. So a later request never resolves to an earlier entry. A lookup ends otherwise only where
comparing the request with an entry is refused, and then with that refusal. -/
theorem lookup_agrees (standard : ∀ e ∈ entries, e.version.IsStandard)
    (registered : Matrix.empty.register entries = .ok m) :
    m.entries = entries ∧
    (∀ a ∈ entries, ∀ b ∈ entries, a.version.precedence = b.version.precedence → a = b) ∧
    (∀ v : Version, v.IsStandard →
      (∃ found, IsFound entries v found ∧
        EqUnless (CannotAnswer entries v) (m.get v)
          (found.elim (.error (.notRegistered v)) .ok) ∧
        ∀ t, parse t = .ok v →
          EqUnless (CannotLookUp entries v) (m.contains (.str t)) (.ok found.isSome)) ∧
      ∃ answer, IsAnswer entries v answer ∧
        EqUnless (CannotAnswer entries v) (m.resolve v) answer) ∧
    ∀ v w : Version, v.IsStandard → w.IsStandard → v.precedence ≤ w.precedence →
      ∀ target later, m.resolve v = .ok target → m.resolve w = .ok later →
        target.entry.version.precedence ≤ later.entry.version.precedence := by
  obtain ⟨rfl, some, ascending⟩ := register_gives standard registered
  refine ⟨rfl, fun a here b there => ascending.unique here there, ?_, ?_⟩
  · intro v request
    obtain ⟨found, isFound, agrees⟩ := find?_agrees ascending standard request
    refine ⟨⟨found, isFound, ?_, ?_⟩, resolve_agrees ascending standard request some⟩
    · refine (cannotAnswer agrees).bind_ok ?_
      cases found with
      | some e => exact .refl _
      | none => exact .refl _
    · intro t read
      have version : Version.ofJson (.str t) = .ok v := read
      unfold contains
      rw [version]
      exact agrees.bind_ok (.refl _)
  · intro v w request requestAlso order target later first second
    obtain ⟨answer, isAnswer, agrees⟩ := resolve_agrees ascending standard request some
    obtain rfl := agrees.eq_of_ok first
    obtain ⟨answer, isAnswerAlso, agreesAlso⟩ := resolve_agrees ascending standard requestAlso some
    obtain rfl := agreesAlso.eq_of_ok second
    obtain ⟨member, atMost, _⟩ := isAnswer.greatest
    obtain ⟨_, _, greatest⟩ := isAnswerAlso.greatest
    exact greatest _ member (atMost.trans order)

/-- A matrix of one entry tells nothing about a version that cannot be compared with it. -/
theorem contains_of_refused {e : ApiEntry} {t : Text} {refusal : VersionError}
    (read : parse t = .ok v) (refused : order e.version v = .error refusal) :
    (⟨[e]⟩ : Matrix).contains (.str t) = .error refusal := by
  have version : Version.ofJson (.str t) = .ok v := read
  have place : (⟨[e]⟩ : Matrix).placeFrom v = .error refusal := by
    unfold placeFrom firstPlace precedes
    simp only [List.length_singleton, Nat.lt_one_iff, if_true]
    show ((order e.version v >>= _) >>= _) >>= _ = _
    rw [refused]
    rfl
  have found : (⟨[e]⟩ : Matrix).find? v = .error refusal := by
    unfold find?
    rw [place]
    rfl
  unfold contains
  rw [version]
  show ((⟨[e]⟩ : Matrix).find? v >>= _) = _
  rw [found]
  rfl

end ModulePackaging.Matrix

namespace ModulePackaging.Sample

open Version

/-- Two versions of the host interface; later ones can fall back to the first. -/
def hostEntries : List ApiEntry := [
  ⟨⟨1, 0, 0, [], []⟩, [], false, true, []⟩,
  ⟨⟨2, 0, 0, ["1"], []⟩, [], false, false, []⟩]

/-- A version between the two. -/
def between : Version := ⟨1, 2, 0, [], []⟩

theorem lookup_agrees_between : (∀ e ∈ hostEntries, e.version.IsStandard) ∧
    Matrix.empty.register hostEntries = .ok ⟨hostEntries⟩ ∧ between.IsStandard ∧
    ∃ answer, Matrix.IsAnswer hostEntries between answer ∧
      EqUnless (Matrix.CannotAnswer hostEntries between)
        ((⟨hostEntries⟩ : Matrix).resolve between) answer := by
  have standard : ∀ e ∈ hostEntries, e.version.IsStandard := by decide
  have registered : Matrix.empty.register hostEntries = .ok ⟨hostEntries⟩ := by rfl
  have request : between.IsStandard := by decide
  have lookups := (Matrix.lookup_agrees standard registered).2.2.1
  exact ⟨standard, registered, request, (lookups between request).2⟩

/-- A pre-release of the host interface that is numbered. -/
def numbered : ApiEntry := ⟨⟨1, 0, 0, ["1"], []⟩, [], false, true, []⟩

/-- The long version cannot be compared with the entry. -/
theorem order_longVersion : order numbered.version longVersion =
    .error (.number (.tooLong longNumber.length)) := by
  have some : longNumber ≠ [] := List.cons_ne_nil _ _
  have long : number longNumber = .error (.number (.tooLong longNumber.length)) := by
    rw [number, Text.natural_of_digits some (isStandardIdentifier_longNumber.digits isDigits_longNumber), if_pos]
    · rfl
    · rw [longNumber, List.length_replicate]
      exact Nat.lt_succ_self _
  show compareParts ["1"] [longNumber] = _
  have one : Text.isDigits "1" = true := by decide
  rw [compareParts, if_neg ne_longNumber, compareIdentifiers, one, isDigits_longNumber]
  show (number "1" >>= fun m => number longNumber >>= fun n => _) = _
  rw [long]
  rfl

/-- Whether a long number is registered is not told: comparing it with the entry is refused. -/
theorem long_not_contained :
    Matrix.empty.register [numbered] = .ok ⟨[numbered]⟩ ∧ (∀ e ∈ [numbered], e.version.IsStandard) ∧
    parse longVersion.toText = .ok longVersion ∧ longVersion.IsStandard ∧
    Matrix.IsFound [numbered] longVersion none ∧
    (⟨[numbered]⟩ : Matrix).contains (.str longVersion.toText) ≠ .ok false := by
  have standard : ∀ e ∈ [numbered], e.version.IsStandard := by decide
  refine ⟨rfl, standard, parse_longVersion, isStandard_longVersion, ?_, ?_⟩
  · intro e member
    rw [List.mem_singleton.mp member]
    have one : IsStandardIdentifier "1" := by decide
    show precedence ⟨1, 0, 0, ["1"], []⟩ ≠ precedence ⟨1, 0, 0, [longNumber], []⟩
    exact precedence_ne_of_identifier one isStandardIdentifier_longNumber ne_longNumber
  · rw [Matrix.contains_of_refused parse_longVersion order_longVersion]
    simp

end ModulePackaging.Sample
