import ModulePackaging.Proofs.Actions

/-!
# Two operations that end alike

Two operations agree if, begun with the same files, both give values or both fail, and leave the
same files. What is required of the values and of the faults is a relation each, and the log is left
out of account. Sequences agree if their parts do.
-/

namespace ModulePackaging.Action

open Files

variable {α β α' β' ε δ ε' δ' : Type}

/-- Two results that are both values or both refusals, in a relation each. -/
inductive Paired (E : ε → δ → Prop) (R : α → β → Prop) : Except ε α → Except δ β → Prop
  | ok {a : α} {b : β} (related : R a b) : Paired E R (.ok a) (.ok b)
  | error {e : ε} {e' : δ} (related : E e e') : Paired E R (.error e) (.error e')

namespace Paired

variable {E : ε → δ → Prop} {R : α → β → Prop} {x : Except ε α} {y : Except δ β}

theorem refl {E : ε → ε → Prop} {R : α → α → Prop} (faults : ∀ e, E e e) (values : ∀ a, R a a)
    (x : Except ε α) : Paired E R x x := by
  cases x with
  | ok a => exact .ok (values a)
  | error e => exact .error (faults e)

theorem mono {E' : ε → δ → Prop} {R' : α → β → Prop} (h : Paired E R x y)
    (faults : ∀ e e', E e e' → E' e e') (values : ∀ a b, R a b → R' a b) : Paired E' R' x y := by
  cases h with
  | ok related => exact .ok (values _ _ related)
  | error related => exact .error (faults _ _ related)

theorem mapError {E' : ε' → δ' → Prop} {f : ε → ε'} {g : δ → δ'} (h : Paired E R x y)
    (faults : ∀ e e', E e e' → E' (f e) (g e')) : Paired E' R (x.mapError f) (y.mapError g) := by
  cases h with
  | ok related => exact .ok related
  | error related => exact .error (faults _ _ related)

/-- Paired values are the values of the results. -/
theorem tracked (h : Paired E R x y) : Paired E (fun a b => x = .ok a ∧ R a b) x y := by
  cases h with
  | ok related => exact .ok ⟨rfl, related⟩
  | error related => exact .error related

/-- Results that give the same values are paired, whatever they are refused for. -/
theorem of_same {x : Except ε α} {y : Except δ α} (same : ∀ a, x = .ok a ↔ y = .ok a) :
    Paired (fun _ _ => True) Eq x y := by
  cases x with
  | ok a =>
      rw [(same a).mp rfl]
      exact .ok rfl
  | error e =>
      cases y with
      | ok b => exact absurd ((same b).mpr rfl) (by simp)
      | error e' => exact .error trivial

end Paired

/-- Two ends with the same files and the same mark, whose results are paired. What a value comes
with is required of the files as well. -/
structure EndAlike (after : Tree → Prop) (E : Fault → Fault → Prop) (R : α → β → Prop)
    (first : Except Fault α × Workspace) (second : Except Fault β × Workspace) : Prop where
  result : Paired E R first.1 second.1
  after : ∀ a, first.1 = .ok a → after first.2.files
  files : second.2.files = first.2.files
  mark : second.2.mark = first.2.mark

/-- Where the first end has a value, the second one has it too, and the same files. -/
theorem EndAlike.gives {after : Tree → Prop} {E : Fault → Fault → Prop} {x y : Action α}
    {u v u' : Workspace} {a : α} (h : EndAlike after E Eq (x.outcome u) (y.outcome v))
    (given : x.outcome u = (.ok a, u')) :
    ∃ v', y.outcome v = (.ok a, v') ∧ v'.files = u'.files := by
  obtain ⟨result, _, files, _⟩ := h
  rw [given] at result files
  rcases there : y.outcome v with ⟨given', v'⟩
  rw [there] at result files
  cases result with
  | ok related => exact ⟨v', by rw [related], files⟩

/-- Operations that, begun with the same files of one kind, end alike with files of another kind. -/
def Agree (before after : Tree → Prop) (E : Fault → Fault → Prop) (R : α → β → Prop)
    (x : Action α) (y : Action β) : Prop :=
  ∀ u v : Workspace, before u.files → v.files = u.files → v.mark = u.mark →
    EndAlike after E R (x.outcome u) (y.outcome v)

namespace Agree

variable {before middle after : Tree → Prop} {E E' : Fault → Fault → Prop} {R : α → β → Prop}
  {R' : α' → β' → Prop} {x : Action α} {y : Action β}

theorem mono {before' after' : Tree → Prop} {S : α → β → Prop} (h : Agree before after E R x y)
    (first : ∀ t, before' t → before t) (last : ∀ t, after t → after' t)
    (faults : ∀ e e', E e e' → E' e e') (values : ∀ a b, R a b → S a b) :
    Agree before' after' E' S x y := by
  intro u v kind files mark
  obtain ⟨result, kept, same, marked⟩ := h u v (first _ kind) files mark
  exact ⟨result.mono faults values, fun a given => last _ (kept a given), same, marked⟩

theorem pure {a : α} {b : β} (related : R a b) :
    Agree before before E R (Pure.pure a) (Pure.pure b) :=
  fun _ _ kind files mark => ⟨.ok related, fun _ _ => kind, files, mark⟩

theorem throw {e e' : Fault} (related : E e e') :
    Agree before after E R (MonadExcept.throw e) (MonadExcept.throw e') :=
  fun _ _ _ files mark => ⟨.error related, fun _ none => absurd none (by simp), files, mark⟩

theorem ofExcept {f : ε → Fault} {g : δ → Fault} {x : Except ε α} {y : Except δ β}
    (paired : Paired E R (x.mapError f) (y.mapError g)) :
    Agree before before E R (Action.ofExcept f x) (Action.ofExcept g y) := by
  intro u v kind files mark
  rw [outcome_ofExcept, outcome_ofExcept]
  exact ⟨paired, fun _ _ => kind, files, mark⟩

/-- Questions that have the same answers in the files of a kind. -/
theorem ask {question question' : Tree → Except Files.Error α}
    (same : ∀ t, before t → ∀ a, question t = .ok a ↔ question' t = .ok a) :
    Agree before before (fun _ _ => True) Eq (Action.ask question) (Action.ask question') := by
  intro u v kind files mark
  rw [outcome_ask, outcome_ask, files]
  exact ⟨(Paired.of_same (same _ kind)).mapError fun _ _ => id, fun _ _ => kind, files, mark⟩

theorem note (record record' : LogRecord) :
    Agree before before E (fun _ _ => True) (Action.note record) (Action.note record') :=
  fun _ _ kind files mark => ⟨.ok trivial, fun _ _ => kind, files, mark⟩

/-- An operation that only looks agrees with itself. -/
theorem of_looks {work : Action α} (looks : Looks work) (faults : ∀ e, E e e) :
    Agree before before E Eq work work := by
  intro u v kind files mark
  have kept := looks.keeps u
  have kept' := looks.keeps v
  refine ⟨?_, fun _ _ => kept.1.symm ▸ kind, ?_, ?_⟩
  · rw [looks.same v u files]
    exact Paired.refl faults (fun _ => rfl) _
  · rw [kept'.1, kept.1, files]
  · rw [kept'.2, kept.2, mark]

/-- What only looks agrees with itself, whatever it is refused for. -/
theorem of_looks_any {work : Action α} (looks : Looks work) :
    Agree before before (fun _ _ => True) Eq work work := of_looks looks fun _ => trivial

/-- Begun with some files, an operation that only looks gives the value that it gives there. -/
theorem tracked (h : Agree before after E R x y) (looks : Looks x) {w : Workspace}
    (here : before w.files) :
    Agree (· = w.files) after E (fun a b => (x.outcome w).1 = .ok a ∧ R a b) x y := by
  intro u v same files mark
  obtain ⟨result, kept, sames, marked⟩ := h u v (same ▸ here) files mark
  rw [looks.same w u same.symm]
  exact ⟨result.tracked, kept, sames, marked⟩

theorem bind {f : α → Action α'} {g : β → Action β'} (first : Agree before middle E R x y)
    (second : ∀ a b, R a b → Agree middle after E R' (f a) (g b)) :
    Agree before after E R' (x >>= f) (y >>= g) := by
  intro u v kind files mark
  obtain ⟨result, kept, same, marked⟩ := first u v kind files mark
  rw [outcome_bind, outcome_bind]
  rcases here : x.outcome u with ⟨given, u'⟩
  rcases there : y.outcome v with ⟨given', v'⟩
  rw [here] at result kept same marked
  rw [there] at result same marked
  cases result with
  | ok related => exact second _ _ related u' v' (kept _ rfl) same marked
  | error related => exact ⟨.error related, fun _ none => absurd none (by simp), same, marked⟩

/-- What catches faults agrees if the handlers do, whatever the files are when they begin. -/
theorem tryCatch {handle : Fault → Action α} {handle' : Fault → Action β}
    (first : Agree before after E R x y)
    (second : ∀ e e', E e e' → Agree (fun _ => True) after E' R (handle e) (handle' e')) :
    Agree before after E' R (MonadExcept.tryCatch x handle) (MonadExcept.tryCatch y handle') := by
  intro u v kind files mark
  obtain ⟨result, kept, same, marked⟩ := first u v kind files mark
  rw [outcome_tryCatch, outcome_tryCatch]
  rcases here : x.outcome u with ⟨given, u'⟩
  rcases there : y.outcome v with ⟨given', v'⟩
  rw [here] at result kept same marked
  rw [there] at result same marked
  cases result with
  | ok related => exact ⟨.ok related, fun _ _ => kept _ rfl, same, marked⟩
  | error related => exact second _ _ related u' v' trivial same marked

/-- A check that is not passed ends with a fault. -/
theorem outcome_check_of_refused {question : Tree → Except Files.Error Bool} {e : Fault}
    {w : Workspace} (refused : question w.files ≠ .ok true) : ∃ fault,
      (Action.ask question >>= fun passed => if passed then x else MonadExcept.throw e).outcome w =
        (.error fault, w) := by
  rw [outcome_bind, outcome_ask]
  rcases answer : question w.files with fault | passed
  · exact ⟨_, rfl⟩
  · cases passed with
    | false => exact ⟨_, rfl⟩
    | true => exact absurd answer refused

/-- What follows a check that is passed alike agrees if it does where the check is passed. -/
theorem check {question question' : Tree → Except Files.Error Bool} {e e' : Fault}
    (same : ∀ t, before t → (question t = .ok true ↔ question' t = .ok true))
    (onward : Agree before after (fun _ _ => True) R x y) :
    Agree before after (fun _ _ => True) R
      (Action.ask question >>= fun passed => if passed then x else MonadExcept.throw e)
      (Action.ask question' >>= fun passed => if passed then y else MonadExcept.throw e') := by
  intro u v kind files mark
  have same : question u.files = .ok true ↔ question' v.files = .ok true := by
    rw [files]
    exact same _ kind
  by_cases passed : question u.files = .ok true
  · rw [outcome_bind, outcome_ask, passed, outcome_bind, outcome_ask, same.mp passed]
    exact onward u v kind files mark
  · obtain ⟨fault, ended⟩ := outcome_check_of_refused (x := x) (e := e) passed
    obtain ⟨fault', ended'⟩ := outcome_check_of_refused (x := y) (e := e') (mt same.mpr passed)
    rw [ended, ended']
    exact ⟨.error trivial, fun _ none => absurd none (by simp), files, mark⟩

/-- Steps that agree on each item and its counterpart agree on all. -/
theorem mapM {f : α → Action α'} {g : β → Action α'} {h : α → β} {l : List α}
    (each : ∀ a ∈ l, Agree before before E Eq (f a) (g (h a))) :
    Agree before before E Eq (l.mapM f) ((l.map h).mapM g) := by
  induction l with
  | nil => exact pure rfl
  | cons a rest ih =>
      rw [List.map_cons, List.mapM_cons, List.mapM_cons]
      refine (each a List.mem_cons_self).bind fun b b' same => ?_
      refine (ih fun c inside => each c (List.mem_cons_of_mem _ inside)).bind fun bs bs' sames => ?_
      exact pure (by rw [same, sames])

end Agree

/-! ## Operations to which the log means nothing -/

/-- An operation that agrees with itself: nothing in it depends on the log. -/
abbrev IsDeaf (work : Action α) : Prop :=
  Agree (fun _ => True) (fun _ => True) Eq Eq work work

namespace IsDeaf

theorem of_looks {work : Action α} (looks : Looks work) : IsDeaf work :=
  Agree.of_looks looks fun _ => rfl

theorem throw (e : Fault) : IsDeaf (MonadExcept.throw e : Action α) := Agree.throw rfl

theorem bind {x : Action α} {f : α → Action β} (first : IsDeaf x) (second : ∀ a, IsDeaf (f a)) :
    IsDeaf (x >>= f) := by
  refine Agree.bind first fun a b same => ?_
  subst same
  exact second a

theorem tryCatch {x : Action α} {handle : Fault → Action α} (first : IsDeaf x)
    (second : ∀ e, IsDeaf (handle e)) : IsDeaf (MonadExcept.tryCatch x handle) := by
  refine Agree.tryCatch first fun e e' same => ?_
  subst same
  exact second e

theorem change (step : Tree → Except Files.Error Tree) : IsDeaf (Action.change step) := by
  intro u v _ files mark
  rw [outcome_change, outcome_change, files]
  cases step u.files with
  | ok t => exact ⟨.ok rfl, fun _ _ => trivial, rfl, mark⟩
  | error e => exact ⟨.error rfl, fun _ _ => trivial, files, mark⟩

theorem makeDirectories (p : Path) : IsDeaf (Action.makeDirectories p) := by
  intro u v _ files mark
  rw [outcome_makeDirectories, outcome_makeDirectories, files]
  rcases u.files.makeDirectories p with ⟨t, _ | e⟩
  · exact ⟨.ok rfl, fun _ _ => trivial, rfl, mark⟩
  · exact ⟨.error rfl, fun _ _ => trivial, rfl, mark⟩

/-- An operation that depends on the mark is deaf if it is so for each mark. -/
theorem get_bind {f : Text → Action α} (each : ∀ mark, IsDeaf (f mark)) :
    IsDeaf ((get : Action Workspace) >>= fun w => f w.mark) := by
  intro u v kind files mark
  rw [outcome_bind, outcome_bind, outcome_get, outcome_get]
  simp only
  rw [mark]
  exact each u.mark u v kind files mark

end IsDeaf

end ModulePackaging.Action
