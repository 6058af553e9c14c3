import ModulePackaging.Proofs.Outcomes
import ModulePackaging.Workspace

/-!
# How operations end

The outcome of an operation is its value or its fault, together with the workspace that it leaves.
Each operation that others are made of has one equation for its outcome, and a sequence ends where
its first part fails or else as its second part does.
-/

namespace ModulePackaging.Action

variable {α β ε : Type}

/-- How an operation ends, and the workspace that it leaves. -/
def outcome (work : Action α) (w : Workspace) : Except Fault α × Workspace := work.run.run w

@[simp] theorem outcome_pure (a : α) (w : Workspace) :
    (pure a : Action α).outcome w = (.ok a, w) := rfl

@[simp] theorem outcome_throw (e : Fault) (w : Workspace) :
    (throw e : Action α).outcome w = (.error e, w) := rfl

@[simp] theorem outcome_get (w : Workspace) : (get : Action Workspace).outcome w = (.ok w, w) := rfl

@[simp] theorem outcome_modify (f : Workspace → Workspace) (w : Workspace) :
    (modify f : Action Unit).outcome w = (.ok (), f w) := rfl

@[simp] theorem outcome_note (record : LogRecord) (w : Workspace) :
    (note record).outcome w = (.ok (), { w with log := w.log ++ [record] }) := rfl

@[simp] theorem outcome_noteAll (records : List LogRecord) (w : Workspace) :
    (noteAll records).outcome w = (.ok (), { w with log := w.log ++ records }) := rfl

/-- A sequence ends where its first part fails, or else as the part behind it. -/
theorem outcome_bind (x : Action α) (f : α → Action β) (w : Workspace) :
    (x >>= f).outcome w =
      match x.outcome w with
      | (.ok a, v) => (f a).outcome v
      | (.error e, v) => (.error e, v) := by
  unfold outcome
  rw [ExceptT.run_bind, StateT.run_bind]
  generalize x.run.run w = ended
  rcases ended with ⟨result, v⟩
  cases result <;> rfl

/-- Two sequences end alike if their first parts do, and their second parts for the values given. -/
theorem outcome_bind_congr {x y : Action α} {f g : α → Action β} {w : Workspace}
    (first : x.outcome w = y.outcome w)
    (second : ∀ a w', y.outcome w = (.ok a, w') → (f a).outcome w' = (g a).outcome w') :
    (x >>= f).outcome w = (y >>= g).outcome w := by
  rw [outcome_bind, outcome_bind, first]
  rcases ended : y.outcome w with ⟨result, w'⟩
  cases result with
  | error e => rfl
  | ok a => exact second a w' ended

/-- A sequence gives a value when both parts do. -/
theorem bind_gives {x : Action α} {f : α → Action β} {w w' : Workspace} {b : β} :
    (x >>= f).outcome w = (.ok b, w') ↔
      ∃ a v, x.outcome w = (.ok a, v) ∧ (f a).outcome v = (.ok b, w') := by
  rw [outcome_bind]
  rcases x.outcome w with ⟨result, v⟩
  cases result with
  | ok a =>
      constructor
      · intro h
        exact ⟨a, v, rfl, h⟩
      · rintro ⟨_, _, same, h⟩
        cases same
        exact h
  | error e => simp

/-- Whether an operation gives a value that passes a test with the workspace that it leaves. -/
def gives (work : Action α) (w : Workspace) (test : α → Workspace → Bool) : Bool :=
  passes (work.outcome w).1 fun a => test a (work.outcome w).2

theorem exists_of_gives {work : Action α} {w : Workspace} {test : α → Workspace → Bool}
    (h : work.gives w test = true) :
    ∃ a w', work.outcome w = (.ok a, w') ∧ test a w' = true := by
  obtain ⟨a, given, passed⟩ := exists_of_passes h
  exact ⟨a, _, Prod.ext given rfl, passed⟩

/-- Whether an operation fails and leaves a workspace that passes a test. -/
def fails (work : Action α) (w : Workspace) (test : Workspace → Bool) : Bool :=
  match work.outcome w with
  | (.ok _, _) => false
  | (.error _, w') => test w'

theorem exists_of_fails {work : Action α} {w : Workspace} {test : Workspace → Bool}
    (h : work.fails w test = true) :
    ∃ e w', work.outcome w = (.error e, w') ∧ test w' = true := by
  unfold fails at h
  split at h
  · exact absurd h (by simp)
  · rename_i e w' ended
    exact ⟨e, w', ended, h⟩

/-- A sequence fails when one of its parts does. -/
theorem bind_fails {x : Action α} {f : α → Action β} {w w' : Workspace} {e : Fault} :
    (x >>= f).outcome w = (.error e, w') ↔ x.outcome w = (.error e, w') ∨
      ∃ a v, x.outcome w = (.ok a, v) ∧ (f a).outcome v = (.error e, w') := by
  rw [outcome_bind]
  rcases x.outcome w with ⟨result, v⟩
  cases result with
  | ok a =>
      constructor
      · intro h
        exact .inr ⟨a, v, rfl, h⟩
      · rintro (same | ⟨_, _, same, h⟩)
        · exact absurd same (by simp)
        · cases same
          exact h
  | error e => simp

/-- A sequence ends with a fault of its first part, or as its second part does. -/
theorem bind_ends {x : Action α} {f : α → Action β} {w w' : Workspace} {result : Except Fault β}
    (h : (x >>= f).outcome w = (result, w')) :
    (∃ e, x.outcome w = (.error e, w') ∧ result = .error e) ∨
      ∃ a v, x.outcome w = (.ok a, v) ∧ (f a).outcome v = (result, w') := by
  cases result with
  | ok b => exact .inr (bind_gives.mp h)
  | error e => exact (bind_fails.mp h).imp (fun first => ⟨e, first, rfl⟩) id

/-- What catches a fault goes on from where the fault left the workspace. -/
theorem outcome_tryCatch (x : Action α) (handle : Fault → Action α) (w : Workspace) :
    (tryCatch x handle).outcome w =
      match x.outcome w with
      | (.ok a, v) => (.ok a, v)
      | (.error e, v) => (handle e).outcome v := by
  unfold outcome tryCatch
  simp only [instMonadExceptOfMonadExceptOf, MonadExceptOf.tryCatch, tryCatchThe,
    ExceptT.tryCatch, ExceptT.run, ExceptT.mk]
  rw [StateT.run_bind]
  generalize StateT.run x w = ended
  rcases ended with ⟨result, v⟩
  cases result <;> rfl

@[simp] theorem outcome_ofExcept (toFault : ε → Fault) (result : Except ε α) (w : Workspace) :
    (ofExcept toFault result).outcome w = (result.mapError toFault, w) := by
  cases result <;> rfl

/-- A result that gives a value was one, and the workspace is left as it was. -/
theorem ofExcept_gives {toFault : ε → Fault} {result : Except ε α} {w w' : Workspace} {a : α}
    (h : (ofExcept toFault result).outcome w = (.ok a, w')) : result = .ok a ∧ w = w' := by
  rw [outcome_ofExcept] at h
  obtain ⟨given, same⟩ := Prod.mk.inj h
  exact ⟨mapError_eq_ok.mp given, same⟩

@[simp] theorem outcome_ask (question : Files.Tree → Except Files.Error α) (w : Workspace) :
    (ask question).outcome w = ((question w.files).mapError .files, w) := by
  unfold ask
  rw [outcome_bind, outcome_get]
  exact outcome_ofExcept _ _ w

/-- A change is done, or refused and not begun. -/
theorem outcome_change (step : Files.Tree → Except Files.Error Files.Tree) (w : Workspace) :
    (change step).outcome w =
      match step w.files with
      | .ok files => (.ok (), { w with files })
      | .error e => (.error (.files e), w) := by
  unfold change
  rw [outcome_bind, outcome_get]
  show (ofExcept Fault.files (step w.files) >>= _).outcome w = _
  rw [outcome_bind, outcome_ofExcept]
  cases step w.files <;> rfl

/-- Making directories keeps those that were made before a refusal. -/
theorem outcome_makeDirectories (p : Path) (w : Workspace) :
    (makeDirectories p).outcome w =
      (match (w.files.makeDirectories p).2 with
        | none => .ok ()
        | some e => .error (.files e), { w with files := (w.files.makeDirectories p).1 }) := by
  unfold makeDirectories
  rw [outcome_bind, outcome_get]
  simp only
  rcases w.files.makeDirectories p with ⟨files, refusal⟩
  simp only
  rw [outcome_bind, outcome_modify]
  cases refusal <;> rfl

/-! ## What an operation does to a workspace, however it ends -/

section Moves

variable {R : Workspace → Workspace → Prop}

/-- An operation that leaves a workspace only in a given relation to the one before. -/
def Moves (R : Workspace → Workspace → Prop) (work : Action α) : Prop :=
  ∀ w, R w (work.outcome w).2

namespace Moves

theorem ends {work : Action α} (moves : Moves R work) {w w' : Workspace} {result : Except Fault α}
    (h : work.outcome w = (result, w')) : R w w' := by
  have related := moves w
  rwa [h] at related

theorem of_keeps (refl : ∀ w, R w w) {work : Action α} (keeps : ∀ w, (work.outcome w).2 = w) :
    Moves R work := by
  intro w
  rw [keeps w]
  exact refl w

theorem bind (trans : ∀ u v w, R u v → R v w → R u w) {x : Action α} {f : α → Action β}
    (first : Moves R x) (second : ∀ a, Moves R (f a)) : Moves R (x >>= f) := by
  intro w
  have before := first w
  rw [outcome_bind]
  rcases found : x.outcome w with ⟨result, v⟩
  rw [found] at before
  cases result with
  | error e => exact before
  | ok a => exact trans _ _ _ before (second a v)

end Moves

end Moves

/-- An operation that only looks: it leaves the files and the mark as they are, whatever it tells in
the log, and what it gives depends on the files alone. -/
structure Looks (work : Action α) : Prop where
  keeps : Moves (fun w w' => w'.files = w.files ∧ w'.mark = w.mark) work
  same : ∀ v w, v.files = w.files → (work.outcome v).1 = (work.outcome w).1

namespace Looks

theorem outcome {work : Action α} (looks : Looks work) {w w' : Workspace}
    {result : Except Fault α} (h : work.outcome w = (result, w')) :
    w'.files = w.files ∧ w'.mark = w.mark := by
  have both := looks.keeps w
  rwa [h] at both

/-- What an operation that leaves the whole workspace gives, if that depends on the files alone. -/
theorem of_outcome {work : Action α} (f : Files.Tree → Except Fault α)
    (gives : ∀ w, work.outcome w = (f w.files, w)) : Looks work where
  keeps := Moves.of_keeps (fun _ => ⟨rfl, rfl⟩) fun w => by rw [gives w]
  same v w files := by rw [gives v, gives w, files]

theorem note (record : LogRecord) : Looks (Action.note record) :=
  ⟨fun _ => ⟨rfl, rfl⟩, fun _ _ _ => rfl⟩

theorem noteAll (records : List LogRecord) : Looks (Action.noteAll records) :=
  ⟨fun _ => ⟨rfl, rfl⟩, fun _ _ _ => rfl⟩

theorem pure (a : α) : Looks (Pure.pure a : Action α) := of_outcome (fun _ => .ok a) fun w => outcome_pure a w

theorem throw (e : Fault) : Looks (MonadExcept.throw e : Action α) :=
  of_outcome (fun _ => .error e) fun w => outcome_throw e w

theorem ofExcept (toFault : ε → Fault) (result : Except ε α) :
    Looks (Action.ofExcept toFault result) :=
  of_outcome (fun _ => result.mapError toFault) fun w => outcome_ofExcept toFault result w

theorem ask (question : Files.Tree → Except Files.Error α) : Looks (Action.ask question) :=
  of_outcome (fun files => (question files).mapError .files) fun w => outcome_ask question w

theorem bind {x : Action α} {f : α → Action β} (first : Looks x) (second : ∀ a, Looks (f a)) :
    Looks (x >>= f) := by
  constructor
  · exact first.keeps.bind (fun _ _ _ h k => ⟨k.1.trans h.1, k.2.trans h.2⟩)
      fun a => (second a).keeps
  · intro v w files
    have given := first.same v w files
    rw [outcome_bind, outcome_bind]
    rcases here : x.outcome v with ⟨result, v'⟩
    rcases there : x.outcome w with ⟨result', w'⟩
    rw [here, there] at given
    obtain rfl : result = result' := given
    cases result with
    | error e => rfl
    | ok a =>
        apply (second a).same
        rw [(first.outcome here).1, (first.outcome there).1, files]

end Looks

end ModulePackaging.Action
