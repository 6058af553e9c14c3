import ModulePackaging.Proofs.Files.Lockstep
import ModulePackaging.Proofs.Files.Storing

/-!
# The same operation in two workspaces

An operation is done in one workspace and in another that others have worked in before. If the paths
that it looks at find both workspaces alike, and both have the same at the locations that it sees,
it ends alike in both: with the same result, and with the same at all that it changes.
-/

namespace ModulePackaging

open Files Files.Tree Action

variable {α β ε : Type} {u v u' v' w : Workspace} {own : Location → Prop}
  {paths : Path → Prop} {p q : Path}

/-! ## Operations that look at some paths -/

/-- An operation that only looks, at some paths only: where these find two trees alike, it gives the
same. -/
structure LooksAt (paths : Path → Prop) (work : Action α) : Prop where
  looks : Looks work
  alike : ∀ u v : Workspace, Comparable u.files v.files →
    (∀ p, paths p → Alike u.files v.files p) → (work.outcome v).1 = (work.outcome u).1

namespace LooksAt

variable {work : Action α}

/-- An operation that looks at some paths looks, whatever the paths. -/
theorem anywhere (h : LooksAt (fun _ => True) work) : Looks work := h.looks

/-- An operation that looks at some paths looks at more. -/
theorem mono {others : Path → Prop} (h : LooksAt paths work) (more : ∀ p, paths p → others p) :
    LooksAt others work :=
  ⟨h.looks, fun u v pair alike => h.alike u v pair fun p here => alike p (more p here)⟩

/-- An operation that gives the same whatever the files are. -/
theorem of_same (looks : Looks work)
    (same : ∀ u v : Workspace, (work.outcome v).1 = (work.outcome u).1) : LooksAt paths work :=
  ⟨looks, fun u v _ _ => same u v⟩

theorem pure (a : α) : LooksAt paths (Pure.pure a : Action α) :=
  of_same (Looks.pure a) fun _ _ => rfl

theorem throw (e : Fault) : LooksAt paths (MonadExcept.throw e : Action α) :=
  of_same (Looks.throw e) fun _ _ => rfl

theorem note (record : LogRecord) : LooksAt paths (Action.note record) :=
  of_same (Looks.note record) fun _ _ => rfl

theorem noteAll (records : List LogRecord) : LooksAt paths (Action.noteAll records) :=
  of_same (Looks.noteAll records) fun _ _ => rfl

theorem ofExcept (toFault : ε → Fault) (result : Except ε α) :
    LooksAt paths (Action.ofExcept toFault result) :=
  of_same (Looks.ofExcept toFault result) fun u v => by rw [outcome_ofExcept, outcome_ofExcept]

theorem ask {question : Tree → Except Files.Error α}
    (same : ∀ u v, Comparable u v → (∀ p, paths p → Alike u v p) → question v = question u) :
    LooksAt paths (Action.ask question) where
  looks := Looks.ask question
  alike u v pair alike := by rw [outcome_ask, outcome_ask, same u.files v.files pair alike]

theorem isFile (here : paths p) : LooksAt paths (Action.ask (·.isFile p)) :=
  ask fun _ _ pair alike => (alike p here).isFile_eq pair

theorem isDirectory (here : paths p) : LooksAt paths (Action.ask (·.isDirectory p)) :=
  ask fun _ _ pair alike => (alike p here).isDirectory_eq pair

theorem holds (here : paths p) : LooksAt paths (Action.ask (·.holds p)) :=
  ask fun _ _ pair alike => (alike p here).holds_eq pair

theorem read (here : paths p) : LooksAt paths (Action.ask (·.read p)) :=
  ask fun _ _ pair alike => (alike p here).read_eq pair

theorem bind {f : α → Action β} (first : LooksAt paths work)
    (second : ∀ a, LooksAt paths (f a)) : LooksAt paths (work >>= f) := by
  refine ⟨first.looks.bind fun a => (second a).looks, fun u v pair alike => ?_⟩
  have given := first.alike u v pair alike
  rw [outcome_bind, outcome_bind]
  rcases here : work.outcome u with ⟨result, u'⟩
  rcases there : work.outcome v with ⟨result', v'⟩
  rw [here, there] at given
  obtain rfl : result' = result := given
  cases result' with
  | error e => rfl
  | ok a =>
      have files := (first.looks.outcome here).1
      have files' := (first.looks.outcome there).1
      refine (second a).alike u' v' ?_ ?_
      · rwa [files, files']
      · rwa [files, files']

theorem ite {c : Prop} [Decidable c] {other : Action α} (first : LooksAt paths work)
    (second : LooksAt paths other) : LooksAt paths (if c then work else other) := by
  split
  · exact first
  · exact second

theorem mapM {l : List β} {f : β → Action α} (each : ∀ b ∈ l, LooksAt paths (f b)) :
    LooksAt paths (l.mapM f) := by
  induction l with
  | nil => exact pure _
  | cons b rest ih =>
      rw [List.mapM_cons]
      refine (each b List.mem_cons_self).bind fun a => ?_
      exact (ih fun c inside => each c (List.mem_cons_of_mem _ inside)).bind fun as => pure _

theorem readText (here : paths p) : LooksAt paths (Action.readText p) :=
  (read here).bind fun _ => (ofExcept _ _).bind fun _ => pure _

end LooksAt

/-! ## Two workspaces that an operation finds alike -/

/-- What an operation looks at: paths from the workspace that it starts in, and locations. -/
structure Reach where
  start : Workspace
  paths : Path → Prop
  seen : Location → Prop

namespace Reach

variable (reach : Reach)

/-- The place of a path. -/
def placeOf (p : Path) : Location := reach.start.files.placeOf p

/-- More locations that are seen. -/
def see (more : Location → Prop) : Reach :=
  { reach with seen := fun l => reach.seen l ∨ more l }

/-- All locations on the way of a path are seen. -/
def Passes (p : Path) : Prop := ∀ l, reach.start.files.IsOnWay p l → reach.seen l

end Reach

/-- Two workspaces that an operation finds alike. -/
structure Company (reach : Reach) (u v : Workspace) : Prop where
  mark : u.mark = reach.start.mark
  mark' : v.mark = reach.start.mark
  home : u.files.home = reach.start.files.home
  pair : Comparable u.files v.files
  alike : ∀ p, reach.paths p → Alike u.files v.files p
  same : ∀ l, reach.seen l → v.files.node? l = u.files.node? l

/-- An operation that ends alike in two workspaces, and owns what it changes. -/
structure Abreast (own : Location → Prop) (work : Action α) (u v : Workspace) : Prop where
  result : (work.outcome v).1 = (work.outcome u).1
  mark : (work.outcome u).2.mark = u.mark
  mark' : (work.outcome v).2.mark = v.mark
  files : Together own u.files v.files (work.outcome u).2.files (work.outcome v).2.files

variable {reach : Reach}

namespace Company

theorem startOf (company : Company reach u v) (p : Path) :
    u.files.startOf p = reach.start.files.startOf p := by
  rw [Tree.startOf, Tree.startOf, company.home]

theorem placeOf (company : Company reach u v) (p : Path) :
    u.files.placeOf p = reach.placeOf p := by
  rw [Reach.placeOf, Tree.placeOf, Tree.placeOf, company.startOf]

theorem isOnWay (company : Company reach u v) (p : Path) (l : Location) :
    u.files.IsOnWay p l ↔ reach.start.files.IsOnWay p l := by
  rw [IsOnWay, IsOnWay, company.startOf]

/-- What is together before is together after the same changes. -/
theorem of_together (company : Company reach u v) (mark : u'.mark = u.mark)
    (mark' : v'.mark = v.mark) (together : Together own u.files v.files u'.files v'.files) :
    Company reach u' v' where
  mark := mark.trans company.mark
  mark' := mark'.trans company.mark'
  home := together.first.trans company.home
  pair := together.comparable company.pair
  alike p here := together.alike (company.alike p here)
  same l here := together.same (company.same l here)

theorem see {more : Location → Prop} (company : Company reach u v)
    (same : ∀ l, more l → v.files.node? l = u.files.node? l) : Company (reach.see more) u v where
  mark := company.mark
  mark' := company.mark'
  home := company.home
  pair := company.pair
  alike := company.alike
  same l := Or.rec (company.same l) (same l)

/-- Where the parent of a path is a directory, both workspaces have the same on the way to it. -/
theorem opened {l : Location} (company : Company reach u v) (here : reach.paths p)
    (found : u.files.resolve p.parent = .ok l) (directory : u.files.node? l = some .directory) :
    Company (reach.see (reach.start.files.IsOnWay p.parent)) u v := by
  refine company.see fun m passed => ?_
  exact (company.alike p here).parent.same_of_directory found directory m
    ((company.isOnWay _ _).mpr passed)

theorem locate_eq (company : Company reach u v) (passes : reach.Passes p) :
    v.files.locate p = u.files.locate p :=
  locate_of_same company.pair fun l passed =>
    company.same l (passes l ((company.isOnWay p l).mp passed))

theorem place_eq (company : Company reach u v) (passes : reach.Passes p) :
    v.files.node? (u.files.placeOf p) = u.files.node? (u.files.placeOf p) := by
  rw [company.placeOf]
  exact company.same _ (passes _ ⟨p.parts, List.prefix_refl _, rfl⟩)

end Company

/-- On the way of a path are the way of its parent and its place. -/
theorem Files.Tree.isOnWay_parent {tree : Tree} {l : Location} (h : tree.IsOnWay p l) :
    tree.IsOnWay p.parent l ∨ l = tree.placeOf p := by
  obtain ⟨done, inside, rfl⟩ := h
  by_cases none : p.parts = []
  · right
    rw [none, List.prefix_nil] at inside
    rw [placeOf, none, inside]
  · rw [Path.parts_eq_concat none, List.prefix_concat_iff] at inside
    rcases inside with whole | above
    · right
      rw [whole, ← Path.parts_eq_concat none]
      rfl
    · exact .inl ⟨done, above, rfl⟩

namespace Reach

/-- A path is passed when its parent's way and its place are seen. -/
theorem passes_of_parent (parent : ∀ l, reach.start.files.IsOnWay p.parent l → reach.seen l)
    (place : reach.seen (reach.placeOf p)) : reach.Passes p := by
  intro l passed
  rcases isOnWay_parent passed with above | rfl
  · exact parent l above
  · exact place

theorem Passes.see {more : Location → Prop} (passes : reach.Passes p) : (reach.see more).Passes p :=
  fun l passed => .inl (passes l passed)

end Reach

namespace Abreast

variable {x : Action α} {f : α → Action β}

theorem of_looks {work : Action α} (company : Company reach u v)
    (looks : LooksAt reach.paths work) : Abreast own work u v := by
  have kept := looks.looks.keeps u
  have kept' := looks.looks.keeps v
  refine ⟨looks.alike u v company.pair company.alike, kept.2, kept'.2, ?_⟩
  rw [kept.1, kept'.1]
  exact Together.refl company.pair

/-- What is shown of an operation that ends alike in two workspaces. -/
theorem of_ends (result : Except Fault α) (u' v' : Workspace) (h : x.outcome u = (result, u'))
    (h' : x.outcome v = (result, v')) (mark : u'.mark = u.mark) (mark' : v'.mark = v.mark)
    (files : Together own u.files v.files u'.files v'.files) : Abreast own x u v := by
  constructor
  · rw [h, h']
  · rw [h]
    exact mark
  · rw [h']
    exact mark'
  · rw [h, h']
    exact files

theorem ends (abreast : Abreast own x u v) : ∃ result u' v', x.outcome u = (result, u') ∧
    x.outcome v = (result, v') ∧ u'.mark = u.mark ∧ v'.mark = v.mark ∧
      Together own u.files v.files u'.files v'.files :=
  ⟨(x.outcome u).1, (x.outcome u).2, (x.outcome v).2, rfl, Prod.ext abreast.result rfl,
    abreast.mark, abreast.mark', abreast.files⟩

/-- One operation behind another one, in the workspaces that the first one leaves. -/
theorem bind (first : Abreast own x u v) (company : Company reach u v)
    (second : ∀ a u' v', Company reach u' v' → x.outcome u = (.ok a, u') →
      Abreast own (f a) u' v') : Abreast own (x >>= f) u v := by
  obtain ⟨result, u', v', here, there, mark, mark', files⟩ := first.ends
  cases result with
  | error e =>
      exact of_ends _ _ _ (bind_fails.mpr (.inl here)) (bind_fails.mpr (.inl there)) mark mark'
        files
  | ok a =>
      obtain ⟨result, u'', v'', onward, onward', marked, marked', more⟩ :=
        (second a u' v' (company.of_together mark mark' files) here).ends
      refine of_ends result u'' v'' ?_ ?_ (marked.trans mark)
        (marked'.trans mark') (files.trans more)
      · rw [outcome_bind, here]
        exact onward
      · rw [outcome_bind, there]
        exact onward'

/-- What catches a fault, in the workspaces that the fault leaves. -/
theorem tryCatch {handle : Fault → Action α} (first : Abreast own x u v)
    (company : Company reach u v)
    (second : ∀ e u' v', Company reach u' v' → Abreast own (handle e) u' v') :
    Abreast own (MonadExcept.tryCatch x handle) u v := by
  obtain ⟨result, u', v', here, there, mark, mark', files⟩ := first.ends
  cases result with
  | ok a =>
      refine of_ends (.ok a) u' v' ?_ ?_ mark mark' files
      · rw [outcome_tryCatch, here]
      · rw [outcome_tryCatch, there]
  | error e =>
      obtain ⟨result, u'', v'', onward, onward', marked, marked', more⟩ :=
        (second e u' v' (company.of_together mark mark' files)).ends
      refine of_ends result u'' v'' ?_ ?_ (marked.trans mark)
        (marked'.trans mark') (files.trans more)
      · rw [outcome_tryCatch, here]
        exact onward
      · rw [outcome_tryCatch, there]
        exact onward'

/-- An operation that depends on the mark, which both workspaces have. -/
theorem get_bind {f : Text → Action α} (company : Company reach u v)
    (onward : Abreast own (f reach.start.mark) u v) :
    Abreast own ((get : Action Workspace) >>= fun w => f w.mark) u v := by
  obtain ⟨result, u', v', here, there, mark, mark', files⟩ := onward.ends
  refine of_ends result u' v' ?_ ?_ mark mark' files
  · rw [← company.mark] at here
    rw [outcome_bind, outcome_get]
    exact here
  · rw [← company.mark'] at there
    rw [outcome_bind, outcome_get]
    exact there

/-- A change that is made or refused alike in both trees. -/
theorem change {step : Tree → Except Files.Error Tree}
    (lockstep : Lockstep own u.files v.files (step u.files) (step v.files))
    (pair : Comparable u.files v.files) : Abreast own (Action.change step) u v := by
  rcases lockstep with ⟨e, refused, refused'⟩ | ⟨files, files', made, made', together⟩
  · refine of_ends (.error (.files e)) u v ?_ ?_ rfl rfl (Together.refl pair)
    · rw [outcome_change, refused]
    · rw [outcome_change, refused']
  · refine of_ends (.ok ()) { u with files } { v with files := files' } ?_ ?_ rfl rfl together
    · rw [outcome_change, made]
    · rw [outcome_change, made']

theorem writeFile (company : Company reach u v) (passes : reach.Passes p)
    (here : own (reach.placeOf p)) (content : Bytes) :
    Abreast own (Action.writeFile p content) u v :=
  change (write_lockstep company.pair (company.locate_eq passes) (company.place_eq passes)
    ((company.placeOf p).symm ▸ here) content defaultMode) company.pair

theorem replace (company : Company reach u v) (passes : reach.Passes p) (passes' : reach.Passes q)
    (there : own (reach.placeOf p)) (here : own (reach.placeOf q)) :
    Abreast own (Action.change (·.replace p q)) u v :=
  change (replace_lockstep company.pair (company.locate_eq passes) (company.locate_eq passes')
    (company.place_eq passes) (company.place_eq passes') ((company.placeOf p).symm ▸ there)
    ((company.placeOf q).symm ▸ here)) company.pair

theorem makeDirectories (company : Company reach u v) (here : reach.paths p) :
    Abreast own (Action.makeDirectories p.parent) u v := by
  obtain ⟨told, together⟩ := makeDirectories_lockstep company.pair (company.alike p here).parent
  refine of_ends _ _ { v with files := (v.files.makeDirectories p.parent).1 }
    (outcome_makeDirectories p.parent u) ?_ rfl rfl together
  rw [outcome_makeDirectories, told]

end Abreast

/-! ## Storing a value -/

/-- What storing at a path looks at: the path, its place and the place beside it. -/
structure Reach.Stores (reach : Reach) (p : Path) : Prop where
  path : reach.paths p
  place : reach.seen (reach.placeOf p)
  beside : reach.seen (reach.placeOf (p.temporary reach.start.mark))

theorem Path.parent_temporary (p : Path) (mark : Text) : (p.temporary mark).parent = p.parent := by
  rw [temporary, parent, parent, List.dropLast_concat]

/-- A value is stored alike in both workspaces. -/
theorem Abreast.storeJson (company : Company reach u v) (stores : reach.Stores p) (value : Json) :
    Abreast reach.seen (Action.storeJson p value) u v := by
  rw [storeJson_eq]
  have way : Abreast reach.seen (Action.makeDirectories p.parent) u v :=
    .makeDirectories company stores.path
  refine way.bind company fun _ u₁ v₁ met₁ made => ?_
  obtain ⟨l, found, directory⟩ := parent_of_makeDirectories made
  have met := met₁.opened stores.path found directory
  have passes : (reach.see (reach.start.files.IsOnWay p.parent)).Passes p :=
    Reach.passes_of_parent (fun _ => .inr) (.inl stores.place)
  have beside : (reach.see (reach.start.files.IsOnWay p.parent)).Passes
      (p.temporary reach.start.mark) := by
    refine Reach.passes_of_parent (fun l passed => .inr ?_) (.inl stores.beside)
    rwa [Path.parent_temporary] at passed
  refine Abreast.get_bind (f := fun mark =>
    if p.parts.isEmpty then throw (.files (.noName p.toText))
    else do
      let bytes ← Action.ofExcept id value.storedBytes
      Action.writeFile (p.temporary mark) (bytes ++ [0x0A])
      Action.change (·.replace (p.temporary mark) p)) met ?_
  split
  · exact .of_looks met (LooksAt.throw _)
  have laid : Abreast reach.seen (Action.ofExcept id value.storedBytes) u₁ v₁ :=
    .of_looks met (LooksAt.ofExcept _ _)
  refine laid.bind met fun bytes u₂ v₂ met₂ _ => ?_
  have written : Abreast reach.seen
      (Action.writeFile (p.temporary reach.start.mark) (bytes ++ [0x0A])) u₂ v₂ :=
    .writeFile met₂ beside stores.beside _
  refine written.bind met₂ fun _ u₃ v₃ met₃ _ => ?_
  exact .replace met₃ beside passes stores.beside stores.place

end ModulePackaging
