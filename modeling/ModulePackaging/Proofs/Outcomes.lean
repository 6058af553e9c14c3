import Mathlib.Data.List.Forall2
import Mathlib.Data.List.Perm.Basic

/-!
# Results that may be refusals

How the value of a step that may refuse tells the values of its parts: for one step after another,
for a refusal that is told in other words, and for a step taken on each item of a list.
-/

namespace ModulePackaging

variable {α β γ ε δ : Type}

/-- A step after another one has a value when both have. -/
theorem bind_eq_ok {x : Except ε α} {f : α → Except ε β} {b : β} :
    (x >>= f) = .ok b ↔ ∃ a, x = .ok a ∧ f a = .ok b := by
  cases x with
  | error e => simp [bind, Except.bind]
  | ok a => simp [bind, Except.bind]

/-- What goes on behind a check has a value when the check passes and it has. -/
theorem guard_eq_ok {c : Prop} [Decidable c] {e : ε} {onward : Unit → Except ε α} {a : α} :
    (if c then (throw e : Except ε Unit) >>= onward else onward ()) = .ok a ↔
      ¬ c ∧ onward () = .ok a := by
  split
  · rename_i failed
    simp [failed, throw, throwThe, MonadExceptOf.throw, bind, Except.bind]
  · rename_i passed
    simp [passed]

/-- What is refused has no value. -/
@[simp] theorem throw_ne_ok {e : ε} {a : α} : (throw e : Except ε α) ≠ .ok a := by
  simp [throw, throwThe, MonadExceptOf.throw]

theorem mapError_ok (a : α) (f : ε → δ) : (Except.ok a : Except ε α).mapError f = .ok a := rfl

theorem mapError_error (e : ε) (f : ε → δ) :
    (Except.error e : Except ε α).mapError f = .error (f e) := rfl

/-- Other words for a refusal leave the values as they are. -/
theorem mapError_eq_ok {x : Except ε α} {f : ε → δ} {a : α} :
    x.mapError f = .ok a ↔ x = .ok a := by
  cases x with
  | error e => simp [mapError_error]
  | ok a => simp [mapError_ok]

/-- A step after another one is refused when the first is, or when it is itself. -/
theorem bind_eq_error {x : Except ε α} {f : α → Except ε β} {e : ε} :
    (x >>= f) = .error e ↔ x = .error e ∨ ∃ a, x = .ok a ∧ f a = .error e := by
  cases x with
  | error e' => simp [bind, Except.bind]
  | ok a => simp [bind, Except.bind]

/-- What goes on behind a check is refused by the check, or behind it. -/
theorem guard_eq_error {c : Prop} [Decidable c] {e e' : ε} {onward : Unit → Except ε α} :
    (if c then (throw e : Except ε Unit) >>= onward else onward ()) = .error e' ↔
      c ∧ e = e' ∨ ¬ c ∧ onward () = .error e' := by
  split
  · rename_i failed
    simp [failed, throw, throwThe, MonadExceptOf.throw, bind, Except.bind]
  · rename_i passed
    simp [passed]

theorem mapError_eq_error {x : Except ε α} {f : ε → δ} {d : δ} :
    x.mapError f = .error d ↔ ∃ e, x = .error e ∧ f e = d := by
  cases x with
  | error e => simp [mapError_error]
  | ok a => simp [mapError_ok]

/-- Whether a result is a value that passes a test. -/
def passes (x : Except ε α) (test : α → Bool) : Bool :=
  match x with
  | .ok a => test a
  | .error _ => false

theorem exists_of_passes {x : Except ε α} {test : α → Bool} (h : passes x test = true) :
    ∃ a, x = .ok a ∧ test a = true := by
  cases x with
  | ok a => exact ⟨a, rfl, h⟩
  | error e => exact absurd h (by simp [passes])

/-- A step that gives a value for each item gives all the values. -/
theorem mapM_eq_pure {m : Type → Type} [Monad m] [LawfulMonad m] {f : α → m β} {g : α → β}
    {l : List α} (h : ∀ a ∈ l, f a = pure (g a)) : l.mapM f = pure (l.map g) := by
  induction l with
  | nil => simp
  | cons a rest ih =>
      rw [List.mapM_cons, h a List.mem_cons_self,
        ih fun b member => h b (List.mem_cons_of_mem _ member)]
      simp

/-- A step whose values are changed gives for all items the changed values. -/
theorem mapM_map_values {f : α → Except ε β} {g : β → γ} (l : List α) :
    (l.mapM fun a => (f a).map g) = (l.mapM f).map (List.map g) := by
  induction l with
  | nil => rfl
  | cons a rest ih =>
      rw [List.mapM_cons, List.mapM_cons, ih]
      cases f a with
      | error e => rfl
      | ok b => cases rest.mapM f <;> rfl

/-- A step gives values for all items when it gives each item the value in its place. -/
theorem mapM_eq_ok_iff {f : α → Except ε β} {l : List α} {values : List β} :
    l.mapM f = .ok values ↔ List.Forall₂ (fun a b => f a = .ok b) l values := by
  induction l generalizing values with
  | nil =>
      rw [List.mapM_nil, List.forall₂_nil_left_iff]
      exact ⟨fun h => (Except.ok.inj h).symm, fun none => congrArg Except.ok none.symm⟩
  | cons a rest ih =>
      rw [List.mapM_cons, bind_eq_ok, List.forall₂_cons_left_iff]
      constructor
      · rintro ⟨b, first, h⟩
        obtain ⟨others, later, h⟩ := bind_eq_ok.mp h
        exact ⟨b, others, first, ih.mp later, (Except.ok.inj h).symm⟩
      · rintro ⟨b, others, first, later, rfl⟩
        exact ⟨b, first, bind_eq_ok.mpr ⟨others, ih.mpr later, rfl⟩⟩

/-- Each of the values that a step gives for the items is the one for an item. -/
theorem exists_of_mapM {f : α → Except ε β} {l : List α} {values : List β}
    (h : l.mapM f = .ok values) : ∀ b ∈ values, ∃ a ∈ l, f a = .ok b := by
  have inPlace := mapM_eq_ok_iff.mp h
  clear h
  induction inPlace with
  | nil => exact List.forall_mem_nil _
  | cons first _ ih =>
      refine List.forall_mem_cons.mpr ⟨⟨_, List.mem_cons_self, first⟩, fun b member => ?_⟩
      obtain ⟨a, inside, value⟩ := ih b member
      exact ⟨a, List.mem_cons_of_mem _ inside, value⟩

/-- A step that gives values for the items gives one for each of them. -/
theorem ok_of_mapM {f : α → Except ε β} {l : List α} {values : List β}
    (h : l.mapM f = .ok values) : ∀ a ∈ l, ∃ b ∈ values, f a = .ok b := by
  have inPlace := mapM_eq_ok_iff.mp h
  clear h
  induction inPlace with
  | nil => exact List.forall_mem_nil _
  | cons first _ ih =>
      refine List.forall_mem_cons.mpr ⟨⟨_, List.mem_cons_self, first⟩, fun a member => ?_⟩
      obtain ⟨b, inside, value⟩ := ih a member
      exact ⟨b, List.mem_cons_of_mem _ inside, value⟩

/-- Items of which one is refused are refused. -/
theorem mapM_error_of_mem {f : α → Except ε β} {l : List α} {a : α} (h : a ∈ l)
    (refused : ∃ e, f a = .error e) : ∃ e, l.mapM f = .error e := by
  obtain ⟨e, refused⟩ := refused
  cases all : l.mapM f with
  | error e' => exact ⟨e', rfl⟩
  | ok values =>
      obtain ⟨b, _, given⟩ := ok_of_mapM all a h
      rw [refused] at given
      exact absurd given (by simp)

/-- A step that refuses the items refuses one of them. -/
theorem exists_of_mapM_error {f : α → Except ε β} {l : List α} {e : ε}
    (h : l.mapM f = .error e) : ∃ a ∈ l, f a = .error e := by
  induction l with
  | nil => exact absurd h (by simp [pure, Except.pure])
  | cons a rest ih =>
      rw [List.mapM_cons] at h
      rcases bind_eq_error.mp h with first | ⟨_, _, h⟩
      · exact ⟨a, List.mem_cons_self, first⟩
      · rcases bind_eq_error.mp h with later | ⟨_, _, h⟩
        · obtain ⟨b, inside, refused⟩ := ih later
          exact ⟨b, List.mem_cons_of_mem _ inside, refused⟩
        · exact absurd h (by simp [pure, Except.pure])

/-- A step that gives values for the items in one order gives them in every order, and the values
are in another order then. -/
theorem mapM_of_perm {f : α → Except ε β} {l m : List α} (same : l.Perm m) {values : List β}
    (h : l.mapM f = .ok values) : ∃ others, m.mapM f = .ok others ∧ values.Perm others := by
  obtain ⟨others, inPlace, order⟩ := List.perm_comp_forall₂ same.symm (mapM_eq_ok_iff.mp h)
  exact ⟨others, mapM_eq_ok_iff.mpr inPlace, order.symm⟩

/-! ## Results that are expected unless something is refused -/

/-- A result that is the expected one, or a refusal of one kind. -/
def EqUnless (refused : ε → Prop) (x expected : Except ε α) : Prop :=
  x = expected ∨ ∃ e, refused e ∧ x = .error e

namespace EqUnless

variable {refused : ε → Prop} {x y : Except ε α}

theorem of_eq (same : x = y) : EqUnless refused x y := .inl same

theorem refl (x : Except ε α) : EqUnless refused x x := .inl rfl

theorem mono {other : ε → Prop} (h : EqUnless refused x y) (wider : ∀ e, refused e → other e) :
    EqUnless other x y := by
  rcases h with same | ⟨e, kind, failed⟩
  · exact .inl same
  · exact .inr ⟨e, wider e kind, failed⟩

/-- What follows an expected value is as expected if it is so for that value. -/
theorem bind_ok {a : α} {f : α → Except ε β} {z : Except ε β}
    (first : EqUnless refused x (.ok a)) (second : EqUnless refused (f a) z) :
    EqUnless refused (x >>= f) z := by
  rcases first with rfl | ⟨e, kind, rfl⟩
  · exact second
  · exact .inr ⟨e, kind, rfl⟩

theorem mapError {other : δ → Prop} {f : ε → δ} (h : EqUnless refused x y)
    (kept : ∀ e, refused e → other (f e)) : EqUnless other (x.mapError f) (y.mapError f) := by
  rcases h with rfl | ⟨e, kind, rfl⟩
  · exact refl _
  · exact .inr ⟨f e, kept e kind, rfl⟩

/-- What is given in spite of possible refusals is what was expected. -/
theorem eq_of_ok {a : α} (h : EqUnless refused x y) (given : x = .ok a) : y = .ok a := by
  rcases h with rfl | ⟨e, _, failed⟩
  · exact given
  · rw [given] at failed
    exact absurd failed (by simp)

end EqUnless

end ModulePackaging
