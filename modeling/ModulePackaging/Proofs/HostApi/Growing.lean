import ModulePackaging.Proofs.HostApi.Lookup
import ModulePackaging.Proofs.VersionOrder

/-!
# Matrices that grow

An entry that is registered behind all others leaves the answers to earlier requests as they are: up
to the version that was the newest before, a request ends in the larger matrix just as in the
smaller one. Halving asks other entries in the two, so this rests on the entries between which the
request stands: both matrices ask for them, and where these can be compared with the request, all
entries can.

Main statement (`isGrown_of_register`).
-/

namespace ModulePackaging.Matrix

open Version

variable {m larger : Matrix} {entries : List ApiEntry} {v : Version} {a b e : ApiEntry}

/-! ## Entries that can be compared -/

/-- An entry that stands below another one with which it can be compared. -/
structure Leads (a b : ApiEntry) : Prop where
  standard : a.version.IsStandard
  also : b.version.IsStandard
  below : a.version.precedence < b.version.precedence
  free : ¬ IsStuck a.version b.version

theorem Leads.trans {c : ApiEntry} (h : Leads a b) (k : Leads b c) : Leads a c where
  standard := h.standard
  also := k.also
  below := h.below.trans k.below
  free stuck :=
    (stuck.of_within h.standard h.also k.also h.below.le k.below.le).elim h.free k.free

instance : Trans Leads Leads Leads := ⟨Leads.trans⟩

/-- The check of an entry against the one before it compares the two. -/
theorem leads_of_checkStep (standard : a.version.IsStandard) (also : b.version.IsStandard)
    (h : checkStep a b = .ok ()) : Leads a b := by
  refine ⟨standard, also, lt_of_checkStep standard also h, fun stuck => ?_⟩
  obtain ⟨failure, failed⟩ := (order_error_iff also standard).mpr stuck.symm
  unfold checkStep at h
  obtain ⟨_, ranked, _⟩ := bind_eq_ok.mp h
  rw [sameRank_eq, failed] at ranked
  exact absurd ranked (by simp [Except.map, mapError_error])

/-- Entries any two of which can be compared. -/
def AreComparable (entries : List ApiEntry) : Prop :=
  ∀ a ∈ entries, ∀ b ∈ entries, ¬ IsStuck a.version b.version

/-- Not only neighbours can be compared in what is registered. -/
theorem areComparable_of_register (standard : ∀ e ∈ entries, e.version.IsStandard)
    (h : Matrix.empty.register entries = .ok m) : AreComparable entries := by
  obtain ⟨_, _, checked⟩ := checked_of_register h
  have leads : entries.Pairwise Leads := List.isChain_iff_pairwise.mp
    (isChain_of_checkAll none standard leads_of_checkStep checked)
  have symmetric : Std.Symm fun a b : ApiEntry => ¬ IsStuck a.version b.version :=
    ⟨fun _ _ free stuck => free stuck.symm⟩
  apply List.Pairwise.forall_of_forall
  · exact fun _ _ stuck => stuck.identifiers.ne rfl
  · exact leads.imp Leads.free

/-- A request that can be compared with all entries. -/
def IsFree (entries : List ApiEntry) (v : Version) : Prop :=
  ∀ e ∈ entries, ¬ IsStuck v e.version

section Free

variable (comparable : AreComparable entries) (standard : ∀ e ∈ entries, e.version.IsStandard)
  (request : v.IsStandard) (here : a ∈ entries) (free : ¬ IsStuck v a.version)

include comparable standard request here free

/-- A request can be compared with what is below an entry that it is above. -/
theorem free_below (reached : a.version.precedence ≤ v.precedence) (member : e ∈ entries)
    (below : e.version.precedence ≤ a.version.precedence) : ¬ IsStuck v e.version := fun stuck =>
  (stuck.symm.of_within (standard e member) (standard a here) request below reached).elim
    (comparable e member a here) (mt IsStuck.symm free)

/-- A request can be compared with what is above an entry that it is below. -/
theorem free_above (within : v.precedence ≤ a.version.precedence) (member : e ∈ entries)
    (above : a.version.precedence ≤ e.version.precedence) : ¬ IsStuck v e.version := fun stuck =>
  (stuck.of_within request (standard a here) (standard e member) within above).elim free
    (comparable a here e member)

end Free

/-! ## What is compared -/

/-- What is asked of two versions is refused as comparing them is. -/
theorem order_eq_error {w : Version} {ask : Ordering → Bool} {f : VersionError}
    (h : (order v w).map ask = .error f) : order v w = .error f := by
  cases told : order v w with
  | error e => simpa [told, Except.map] using h
  | ok o => simp [told, Except.map] at h

/-- Versions of which something is told can be compared. -/
theorem not_isStuck {w : Version} {ask : Ordering → Bool} {answer : Bool} (request : v.IsStandard)
    (standard : w.IsStandard) (h : (order v w).map ask = .ok answer) : ¬ IsStuck v w := by
  intro stuck
  obtain ⟨f, failed⟩ := (order_error_iff request standard).mpr stuck
  rw [failed] at h
  exact absurd h (by simp [Except.map])

theorem precedes_eq_ok {w : Version} {below : Bool} (request : v.IsStandard)
    (standard : w.IsStandard) (h : v.precedes w = .ok below) :
    ¬ IsStuck v w ∧ (below = true ↔ v.precedence < w.precedence) := by
  have told := Except.ok.inj ((precedes_agrees request standard).eq_of_ok h)
  exact ⟨not_isStuck request standard (precedes_eq v w ▸ h), by rw [← told, decide_eq_true_eq]⟩

theorem follows_eq_ok {w : Version} {above : Bool} (request : v.IsStandard)
    (standard : w.IsStandard) (h : v.follows w = .ok above) :
    ¬ IsStuck v w ∧ (above = true ↔ w.precedence < v.precedence) := by
  have told := Except.ok.inj ((follows_agrees request standard).eq_of_ok h)
  exact ⟨not_isStuck request standard (follows_eq v w ▸ h), by rw [← told, decide_eq_true_eq]⟩

section Requests

variable (ascending : IsAscending m.entries) (standard : ∀ e ∈ m.entries, e.version.IsStandard)
  (request : v.IsStandard)

include ascending standard request

/-- A request that can be compared with all entries resolves to what a scan gives. -/
theorem isAnswer_of_free (some : m.entries ≠ []) (free : IsFree m.entries v) :
    IsAnswer m.entries v (m.resolve v) := by
  obtain ⟨answer, isAnswer, same | ⟨_, ⟨f, _, e, member, refused | refused⟩, _⟩⟩ :=
    resolve_agrees ascending standard request some
  · rwa [same]
  · exact absurd ((order_error_iff request (standard e member)).mp ⟨f, refused.2⟩) (free e member)
  · exact absurd ((order_error_iff (standard e member) request).mp ⟨f, refused.2⟩).symm
      (free e member)

variable (comparable : AreComparable m.entries)

include comparable

/-- Halving for a request is refused, or else the request can be compared with all entries, since it
was compared with those on both sides of its place. -/
theorem refused_or_free_of_placeAfter :
    (∃ e ∈ m.entries, ∃ f, order v e.version = .error f ∧ m.placeAfter v = .error f) ∨
      IsFree m.entries v := by
  rcases @firstPlace_ends m (fun w => v.precedes w) (m.entries.length + 1) 0 m.entries.length
      (by omega) (Nat.zero_le _) le_rfl with
    ⟨e, member, f, failed, ended⟩ | ⟨place, _, _, upTo, before, behind⟩
  · exact .inl ⟨e, member, f, order_eq_error (precedes_eq v _ ▸ failed), ended⟩
  refine .inr fun e member => ?_
  obtain ⟨i, found⟩ := List.mem_iff_getElem?.mp member
  -- An entry in front of the place stands below the last one there, any other above the first.
  by_cases early : i < place
  · have some : place - 1 < m.entries.length := by omega
    have there : m.entries[place - 1]? = .some m.entries[place - 1] := List.getElem?_eq_getElem some
    have inside := List.getElem_mem some
    obtain ⟨free, below⟩ := precedes_eq_ok request (standard _ inside) (before _ (by omega) there)
    have atMost := not_lt.mp (mt below.mpr Bool.false_ne_true)
    exact free_below comparable standard request inside free atMost member
      (ascending.le (by omega) found there)
  · have some : place < m.entries.length := by
      have bound := (List.getElem?_eq_some_iff.mp found).1
      omega
    have there : m.entries[place]? = .some m.entries[place] := List.getElem?_eq_getElem some
    have inside := List.getElem_mem some
    obtain ⟨free, below⟩ := precedes_eq_ok request (standard _ inside) (behind _ some there)
    exact free_above comparable standard request inside free (below.mp rfl).le member
      (ascending.le (Nat.not_lt.mp early) there found)

/-- A request is refused because it cannot be compared with some entry, or it can be compared with
all of them. -/
theorem refused_or_free (some : m.entries ≠ []) :
    (∃ e ∈ m.entries, ∃ f, order v e.version = .error f ∧ m.resolve v = .error (.badVersion f)) ∨
      IsFree m.entries v := by
  obtain ⟨oldest, newest, toOldest, toNewest, first, newestIn, least, greatest⟩ :=
    exists_ends ascending some
  have oldestIn : oldest ∈ m.entries := List.mem_of_getElem? first
  unfold resolve
  rw [toOldest, toNewest]
  simp only [bind, Except.bind]
  cases low : v.precedes oldest.version with
  | error f => exact .inl ⟨oldest, oldestIn, f, order_eq_error (precedes_eq v _ ▸ low), rfl⟩
  | ok below =>
      obtain ⟨freeLow, isBelow⟩ := precedes_eq_ok request (standard _ oldestIn) low
      cases below with
      | true =>
          exact .inr fun e member => free_above comparable standard request oldestIn freeLow
            (isBelow.mp rfl).le member (least e member)
      | false =>
          simp only [mapError_ok, Bool.false_eq_true, if_false]
          cases high : v.follows newest.version with
          | error f => exact .inl ⟨newest, newestIn, f, order_eq_error (follows_eq v _ ▸ high), rfl⟩
          | ok above =>
              obtain ⟨freeHigh, isAbove⟩ := follows_eq_ok request (standard _ newestIn) high
              cases above with
              | true =>
                  exact .inr fun e member => free_below comparable standard request newestIn
                    freeHigh (isAbove.mp rfl).le member (greatest e member)
              | false =>
                  have searched :=
                    refused_or_free_of_placeAfter ascending standard request comparable
                  refine searched.imp_left ?_
                  rintro ⟨e, member, f, failed, ended⟩
                  refine ⟨e, member, f, failed, ?_⟩
                  show m.resolveWithin v = _
                  unfold resolveWithin
                  rw [ended]
                  rfl

end Requests

/-! ## Answers -/

/-- A scan gives one answer. -/
theorem IsAnswer.unique {x y : Except MatrixError Target} (ascending : IsAscending entries)
    (h : IsAnswer entries v x) (k : IsAnswer entries v y) : x = y := by
  -- Answers of two kinds put the request in two places; those of one kind are about one entry.
  cases h <;> cases k <;> grind [IsAscending.unique]

/-- An entry above the newest one changes no answer up to there. -/
theorem IsAnswer.grow {newest : ApiEntry} {x : Except MatrixError Target}
    (h : IsAnswer entries v x) (last : newest ∈ entries)
    (within : v.precedence ≤ newest.version.precedence)
    (higher : newest.version.precedence < b.version.precedence) :
    IsAnswer (entries ++ [b]) v x := by
  have kept : ∀ {e : ApiEntry}, e ∈ entries → e ∈ entries ++ [b] := List.mem_append_left [b]
  have beyond : v.precedence < b.version.precedence := within.trans_lt higher
  have all : ∀ {P : ApiEntry → Prop}, (∀ e ∈ entries, P e) → P b → ∀ e ∈ entries ++ [b], P e :=
    fun each new => List.forall_mem_append.mpr ⟨each, List.forall_mem_singleton.mpr new⟩
  cases h with
  | exact member same => exact .exact (kept member) same
  | tooOld member least below =>
      exact .tooOld (kept member) (all least ((least newest last).trans higher.le))
        (all below beyond)
  | beyond _ _ above => exact absurd (above newest last) (not_lt.mpr within)
  | between member below greatest inside above compatible =>
      exact .between (kept member) below (all greatest (.inr beyond)) (kept inside) above compatible
  | incompatible member below greatest inside above limited =>
      exact .incompatible (kept member) below (all greatest (.inr beyond)) (kept inside) above
        limited

/-- A request up to the newest version can be compared with an entry above, if it can be compared
with the others. -/
theorem IsFree.grow {newest : ApiEntry} (h : IsFree entries v)
    (comparable : AreComparable (entries ++ [b]))
    (standard : ∀ e ∈ entries ++ [b], e.version.IsStandard) (request : v.IsStandard)
    (last : newest ∈ entries) (within : v.precedence ≤ newest.version.precedence)
    (higher : newest.version.precedence < b.version.precedence) : IsFree (entries ++ [b]) v := by
  refine List.forall_mem_append.mpr ⟨h, List.forall_mem_singleton.mpr ?_⟩
  exact free_above comparable standard request (List.mem_append_left [b] last) (h newest last)
    within List.mem_concat_self higher.le

/-! ## Requests to a matrix that grows -/

/-- A matrix with one entry behind those of another one. Up to the version that was the newest, a
request ends in both the same way: it resolves to the same entry, or is refused alike. If it can be
compared with all entries, it ends as a scan of the earlier ones says. -/
structure IsGrown (m larger : Matrix) : Prop where
  entries : ∃ e, larger.entries = m.entries ++ [e]
  answers : ∀ newest v, m.newest = .ok newest → v.IsStandard →
    v.precedence ≤ newest.version.precedence →
      larger.resolve v = m.resolve v ∧ (IsFree m.entries v → IsAnswer m.entries v (m.resolve v))

/-- What is registered with one more entry behind the others has grown. -/
theorem isGrown_of_register (standard : ∀ e ∈ entries ++ [b], e.version.IsStandard)
    (registered : Matrix.empty.register entries = .ok m)
    (grown : Matrix.empty.register (entries ++ [b]) = .ok larger) : IsGrown m larger := by
  obtain ⟨before, new⟩ := List.forall_mem_append.mp standard
  obtain ⟨rfl, some, ascending⟩ := register_gives before registered
  obtain ⟨all, someLarger, ascendingLarger⟩ := register_gives standard grown
  have comparable := areComparable_of_register before registered
  have comparableLarger := areComparable_of_register standard grown
  obtain ⟨_, newest', _, last', _, newestIn, _, _⟩ := exists_ends ascending some
  have higher : newest'.version.precedence < b.version.precedence :=
    (List.pairwise_append.mp ascendingLarger).2.2 newest' newestIn b (List.mem_singleton_self b)
  refine ⟨⟨b, all⟩, fun newest v last request within => ?_⟩
  obtain rfl := Except.ok.inj (last.symm.trans last')
  have answers := isAnswer_of_free ascending before request some
  refine ⟨?_, answers⟩
  rw [← all] at standard ascendingLarger comparableLarger someLarger
  rcases refused_or_free ascending before request comparable some with
    ⟨e, member, f, failed, refused⟩ | free
  · rcases refused_or_free ascendingLarger standard request comparableLarger someLarger with
      ⟨e', member', f', failed', refused'⟩ | free
    · -- Both ask for entries that cannot be compared with the request, and these give one reason.
      have inLarger : e ∈ larger.entries := all ▸ List.mem_append_left [b] member
      rw [refused, refused', order_error_unique request (standard e inLarger) (standard e' member')
        failed failed' (comparableLarger e inLarger e' member')]
    · have stuck := (order_error_iff request (before e member)).mp ⟨f, failed⟩
      exact absurd stuck (free e (all ▸ List.mem_append_left [b] member))
  · have freeLarger : IsFree larger.entries v := by
      rw [all] at comparableLarger standard ⊢
      exact free.grow comparableLarger standard request newestIn within higher
    have answer : IsAnswer larger.entries v (m.resolve v) := by
      rw [all]
      exact (answers free).grow newestIn within higher
    exact (isAnswer_of_free ascendingLarger standard request someLarger freeLarger).unique
      ascendingLarger answer

/-- A request that cannot be compared with the oldest entry is not answered. -/
theorem resolve_of_refused {rest : List ApiEntry} {f : VersionError}
    (refused : order v e.version = .error f) :
    (⟨e :: rest⟩ : Matrix).resolve v = .error (.badVersion f) := by
  have last : (e :: rest).getLast? = some ((e :: rest).getLast (List.cons_ne_nil e rest)) :=
    List.getLast?_eq_some_getLast _
  have first : v.precedes e.version = .error f := by
    rw [precedes_eq, refused]
    rfl
  unfold resolve Matrix.newest
  simp only [last]
  show (v.precedes e.version).mapError _ >>= _ = _
  rw [first]
  rfl

end ModulePackaging.Matrix
