import Mathlib.Order.Defs.Unbundled
import ModulePackaging.Build.Basic
import ModulePackaging.Proofs.Build.Publishing

/-!
# What the stages of a build do to the files

Every stage but the last only looks at the files, except that a toolchain runs a command. So until
an archive is published, paths that the command spares lead to what they led to before, and no
staging directory is new.
-/

namespace ModulePackaging

open Files Files.Tree Action

variable {α : Type} {w w' : Workspace} {paths : Path → Prop} {K : Tree → Tree → Prop}

/-- A location that is named like a staging directory. -/
def IsStage (l : Location) : Prop := ∃ dir name, l = dir ++ [Archive.stagingStart ++ name]

/-! ## Files that a command leaves alone -/

/-- The files after something that keeps to itself: some paths lead to the same as before, and no
directory is new that is named like a stage. -/
structure Files.Tree.Keeps (paths : Path → Prop) (tree tree' : Tree) : Prop where
  home : tree'.home = tree.home
  sound : tree.IsSound → tree'.IsSound
  settled : ∀ p, paths p → tree.IsSettled p → tree'.IsSettled p
  found : ∀ p, paths p → tree'.found? p = tree.found? p
  stages : ∀ l, IsStage l → tree'.node? l = some .directory → tree.node? l = some .directory

namespace Files.Tree.Keeps

variable {tree tree' tree'' : Tree}

theorem refl (paths : Path → Prop) (tree : Tree) : Keeps paths tree tree :=
  ⟨rfl, id, fun _ _ => id, fun _ _ => rfl, fun _ _ => id⟩

theorem trans (h : Keeps paths tree tree') (k : Keeps paths tree' tree'') :
    Keeps paths tree tree'' where
  home := k.home.trans h.home
  sound sound := k.sound (h.sound sound)
  settled p here settled := k.settled p here (h.settled p here settled)
  found p here := (k.found p here).trans (h.found p here)
  stages l stage there := h.stages l stage (k.stages l stage there)

theorem placeOf (h : Keeps paths tree tree') (p : Path) : tree'.placeOf p = tree.placeOf p := by
  rw [Tree.placeOf, Tree.placeOf, startOf, startOf, h.home]

/-- A path without long names is looked up as before. -/
theorem lookup_eq (h : Keeps paths tree tree') {p : Path} (here : paths p) (short : HasShortNames p) :
    tree'.lookup p = tree.lookup p := by
  by_cases named : IsNamed p
  · rw [lookup_of_named named short, lookup_of_named named short, h.found p here]
  · exact lookup_of_unnamed named tree' tree

instance : IsPreorder Tree (Keeps paths) where
  refl := Keeps.refl paths
  trans _ _ _ h k := h.trans k

end Files.Tree.Keeps

/-- A machine whose commands keep something of the files. -/
def Machine.Spares (machine : Machine) (K : Tree → Tree → Prop) : Prop :=
  ∀ invocation tree outcome tree', machine invocation tree = .ok (outcome, tree') → K tree tree'

/-- A workspace in which something of the files is kept. -/
def Undisturbed (K : Tree → Tree → Prop) (w w' : Workspace) : Prop :=
  w'.mark = w.mark ∧ K w.files w'.files

variable [IsPreorder Tree K]

namespace Undisturbed

theorem of_same (files : w'.files = w.files) (mark : w'.mark = w.mark) : Undisturbed K w w' :=
  ⟨mark, by rw [files]; exact Std.Refl.refl w.files⟩

theorem refl (w : Workspace) : Undisturbed K w w := of_same rfl rfl

theorem trans {u v w : Workspace} (h : Undisturbed K u v) (k : Undisturbed K v w) :
    Undisturbed K u w := ⟨k.1.trans h.1, IsTrans.trans _ _ _ h.2 k.2⟩

theorem bind {β : Type} {x : Action α} {f : α → Action β} (first : Moves (Undisturbed K) x)
    (second : ∀ a, Moves (Undisturbed K) (f a)) : Moves (Undisturbed K) (x >>= f) :=
  Moves.bind (R := Undisturbed K) (fun _ _ _ h k => h.trans k) first second

theorem of_looks {work : Action α} (looks : Looks work) : Moves (Undisturbed K) work := by
  intro w
  obtain ⟨files, mark⟩ := looks.keeps w
  exact of_same files mark

end Undisturbed

/-! ## The stages -/

namespace BuildStage

variable {stage : BuildStage} {label : Text} {work : Action α} {result : Except Fault α}

/-- A stage ends as its work does, with a fault told as that of a failed build. -/
theorem run_ends (h : (stage.run label work).outcome w = (result, w')) :
    ∃ v ends v', v.files = w.files ∧ v.mark = w.mark ∧ work.outcome v = (ends, v') ∧
      w'.files = v'.files ∧ w'.mark = v'.mark ∧ result = ends.mapError stage.failed := by
  unfold run at h
  rw [outcome_bind, outcome_note] at h
  simp only at h
  rw [outcome_tryCatch] at h
  rcases ended : work.outcome { w with log := w.log ++ [stage.entryRecord label] } with ⟨ends, v'⟩
  refine ⟨{ w with log := w.log ++ [stage.entryRecord label] }, ends, v', rfl, rfl, ended, ?_⟩
  rw [ended] at h
  cases ends with
  | ok a =>
      cases h
      exact ⟨rfl, rfl, rfl⟩
  | error e =>
      simp only at h
      rw [outcome_bind, outcome_note] at h
      cases h
      exact ⟨rfl, rfl, rfl⟩

theorem run_fails {e : Fault} (h : (stage.run label work).outcome w = (.error e, w')) :
    ∃ fault, e = stage.failed fault := by
  obtain ⟨_, ends, _, _, _, _, _, _, told⟩ := run_ends h
  cases ends with
  | ok a => exact absurd told (by simp [mapError_ok])
  | error fault => exact ⟨fault, Except.error.inj told⟩

theorem run_gives {a : α} (h : (stage.run label work).outcome w = (.ok a, w')) :
    ∃ v v', v.files = w.files ∧ v.mark = w.mark ∧ work.outcome v = (.ok a, v') := by
  obtain ⟨v, ends, v', files, mark, ended, _, _, told⟩ := run_ends h
  exact ⟨v, v', files, mark, ended.trans (by rw [mapError_eq_ok.mp told.symm])⟩

/-- A stage with nothing but notes behind it ends as its work does. -/
theorem run_then_ends {β : Type} {f : α → Action β} {result : Except Fault β} (give : α → β)
    (h : ((stage.run label work) >>= f).outcome w = (result, w'))
    (notes : ∀ a u, ∃ u', (f a).outcome u = (.ok (give a), u') ∧ u'.files = u.files ∧
      u'.mark = u.mark) :
    ∃ v ends v', v.files = w.files ∧ v.mark = w.mark ∧ work.outcome v = (ends, v') ∧
      w'.files = v'.files ∧ w'.mark = v'.mark ∧
      result = (ends.map give).mapError stage.failed := by
  rcases bind_ends h with ⟨e, refused, rfl⟩ | ⟨a, w₁, gave, onward⟩
  · obtain ⟨v, ends, v', files, mark, ended, same, marks, told⟩ := run_ends refused
    refine ⟨v, ends, v', files, mark, ended, same, marks, ?_⟩
    cases ends with
    | ok a => exact absurd told (by simp [mapError_ok])
    | error fault =>
        rw [Except.error.inj told]
        rfl
  · obtain ⟨v, ends, v', files, mark, ended, same, marks, told⟩ := run_ends gave
    obtain ⟨u, noted, files', mark'⟩ := notes a w₁
    rw [noted] at onward
    cases onward
    refine ⟨v, ends, v', files, mark, ended, files'.trans same, mark'.trans marks, ?_⟩
    rw [mapError_eq_ok.mp told.symm]
    rfl

omit [IsPreorder Tree K] in
theorem run_moves (moves : Moves (Undisturbed K) work) :
    Moves (Undisturbed K) (stage.run label work) := by
  intro w
  rcases ran : (stage.run label work).outcome w with ⟨result, w'⟩
  obtain ⟨v, ends, v', files, mark, ended, same, marks, _⟩ := run_ends ran
  obtain ⟨kept, keeps⟩ := moves v
  rw [ended] at kept keeps
  exact ⟨marks.trans (kept.trans mark), same ▸ files ▸ keeps⟩

/-- A build ends in a stage, with the files kept, or goes on with what the stage gives. -/
theorem run_cases {β : Type} {f : α → Action β} {start : Workspace} {result : Except Fault β}
    (moves : Moves (Undisturbed K) work) (before : Undisturbed K start w)
    (h : ((stage.run label work) >>= f).outcome w = (result, w')) :
    ((∃ stage fault, result = .error (failed stage fault)) ∧ Undisturbed K start w') ∨
      ∃ a v v' next, v.files = w.files ∧ work.outcome v = (.ok a, v') ∧
        Undisturbed K start next ∧ (f a).outcome next = (result, w') := by
  rcases bind_ends h with ⟨e, refused, rfl⟩ | ⟨a, next, gave, onward⟩
  · obtain ⟨fault, rfl⟩ := run_fails refused
    exact .inl ⟨⟨stage, fault, rfl⟩, before.trans ((run_moves moves).ends refused)⟩
  · obtain ⟨v, v', files, _, ended⟩ := run_gives gave
    exact .inr ⟨a, v, v', next, files, ended, before.trans ((run_moves moves).ends gave), onward⟩

end BuildStage

namespace Toolchain

theorem looksAt_found {request : CompileRequest} {artifact : Path}
    (here : paths (request.sourceDir / artifact)) : LooksAt paths (found request artifact) := by
  unfold found
  refine (LooksAt.isFile here).bind fun isFile => ?_
  exact LooksAt.ite (LooksAt.pure _) (LooksAt.throw _)

/-- Tells a command that failed. -/
def tellFailure (outcome : Outcome) : Action Unit := do
  match ← Action.ofExcept .undecodable outcome.failure? with
  | some failure => throw (.toolchain failure)
  | none => pure ()

theorem looksAt_tellFailure (outcome : Outcome) : LooksAt paths (tellFailure outcome) := by
  refine (LooksAt.ofExcept _ _).bind fun failure => ?_
  cases failure with
  | none => exact LooksAt.pure _
  | some t => exact LooksAt.throw _

/-- What a command line runs for a request. -/
def invocationFor (request : CompileRequest) (words : List Text) : Invocation :=
  ⟨words.headD [], words.tail, request.sourceDir, request.bindings⟩

/-- Running a command leaves the files as the machine does, if the command starts. -/
theorem outcome_runCommand (machine : Machine) (request : CompileRequest) (words : List Text)
    (w : Workspace) :
    (runCommand machine request words).outcome w =
      match machine (invocationFor request words) w.files with
      | .ok (outcome, files) =>
        (tellFailure outcome).outcome { w with log := w.log ++ [commandRecord words], files }
      | .error e => (.error (startFault e), { w with log := w.log ++ [commandRecord words] }) := by
  unfold runCommand
  rw [outcome_bind, outcome_note]
  simp only
  rw [outcome_bind, outcome_get]
  simp only
  rw [outcome_bind, outcome_ofExcept]
  unfold invocationFor
  cases machine ⟨words.headD [], words.tail, request.sourceDir, request.bindings⟩ w.files with
  | error e => rfl
  | ok ended => rfl

/-- Running a command keeps of the files what the machine spares. -/
theorem runCommand_moves {machine : Machine} (spares : machine.Spares K)
    (request : CompileRequest) (words : List Text) :
    Moves (Undisturbed K) (runCommand machine request words) := by
  intro w
  rw [outcome_runCommand]
  cases ran : machine (invocationFor request words) w.files with
  | error e => exact Undisturbed.refl w
  | ok ended =>
      obtain ⟨outcome, files⟩ := ended
      have kept : K w.files files := spares _ _ _ _ ran
      have looks : LooksAt (fun _ => False) (tellFailure outcome) := looksAt_tellFailure outcome
      obtain ⟨same, mark⟩ := looks.looks.keeps { w with log := w.log ++ [commandRecord words], files }
      exact ⟨mark, same ▸ kept⟩

theorem compile_moves {machine : Machine} (spares : machine.Spares K)
    (request : CompileRequest) (toolchain : Toolchain) :
    Moves (Undisturbed K) (toolchain.compile machine request) := by
  have last : ∀ artifact, LooksAt (fun _ => True) (found request artifact) :=
    fun _ => looksAt_found trivial
  cases toolchain with
  | prebuilt artifact => exact Undisturbed.of_looks (last artifact).looks
  | command words artifact =>
      exact Undisturbed.bind (runCommand_moves spares request words)
        fun _ => Undisturbed.of_looks (last artifact).looks

end Toolchain

namespace Project

/-- Loading a project looks at the source, and at the project file in it. -/
theorem looksAt_load {source : Path} (here : paths source) (inside : paths (source / filename)) :
    LooksAt paths (load source) := by
  have rest : ∀ file : Path, paths file → LooksAt paths (do
      let value ← Action.ofExcept readFault (Json.read (← Action.readText file))
      Action.ofExcept ConfigError.toFault (ofJson file.parent value)) := fun file there =>
    (LooksAt.readText there).bind fun _ => (LooksAt.ofExcept _ _).bind fun _ => LooksAt.ofExcept _ _
  unfold load
  refine (LooksAt.isDirectory here).bind fun isDirectory => ?_
  have there : paths (if isDirectory = true then source / Path.ofText filename else source) := by
    split
    · exact inside
    · exact here
  refine (LooksAt.holds there).bind fun found => ?_
  exact LooksAt.ite ((LooksAt.throw _).bind fun _ => rest _ there) (rest _ there)

theorem looksAt_readResources {project : Project}
    (here : ∀ spec ∈ project.resources, paths spec.source) :
    LooksAt paths project.readResources := by
  refine LooksAt.mapM fun spec member => (LooksAt.isFile (here spec member)).bind fun isFile => ?_
  refine LooksAt.ite ?_ (LooksAt.throw _)
  exact (LooksAt.read (here spec member)).bind fun _ => LooksAt.pure _

theorem looks_readResources (project : Project) : Looks project.readResources :=
  LooksAt.anywhere (looksAt_readResources fun _ _ => trivial)

end Project

theorem Ledger.looksAt_load {p : Path} (here : paths p) : LooksAt paths (load p) := by
  refine ⟨Looks.of_outcome (loaded p) (outcome_load p), fun u v pair alike => ?_⟩
  rw [outcome_load, outcome_load]
  unfold loaded
  rw [(alike p here).lookup_eq pair]

theorem Ledger.looksAt_checkIn {p : Path} (here : paths p) (d : Descriptor) :
    LooksAt paths (checkIn p d) :=
  (looksAt_load here).bind fun _ => LooksAt.ofExcept _ _

theorem KeyFile.looksAt_load {p : Path} (here : paths p) (password : Option Bytes) :
    LooksAt paths (load p password) := by
  have rest : LooksAt paths (do
      let content ← Action.ask (·.read p)
      Action.ofExcept (KeyFileError.toFault p) (parse content password)) :=
    (LooksAt.read here).bind fun _ => LooksAt.ofExcept _ _
  unfold load
  refine (LooksAt.holds here).bind fun found => ?_
  exact LooksAt.ite ((LooksAt.throw _).bind fun _ => rest) rest

theorem KeySource.looksAt_load {source : KeySource} (here : ∀ p, source = .file p → paths p) :
    LooksAt paths source.load := by
  cases source with
  | handle h => exact LooksAt.pure _
  | file p => exact (KeyFile.looksAt_load (here p rfl) none).bind fun _ => LooksAt.pure _

namespace BuildRequest

variable (request : BuildRequest)

/-- Resolving looks at the source, the project file and the ledger. -/
theorem looksAt_resolve (source : paths request.source)
    (file : paths (request.source / Project.filename))
    (ledger : ∀ p, request.ledger = some p → paths p) : LooksAt paths request.resolve := by
  unfold resolve
  refine (Project.looksAt_load source file).bind fun project => ?_
  refine (LooksAt.ofExcept _ _).bind fun d => ?_
  cases there : request.ledger with
  | none => exact LooksAt.pure _
  | some p => exact (Ledger.looksAt_checkIn (ledger p there) d).bind fun _ => LooksAt.pure _

theorem looks_resolve : Looks request.resolve :=
  LooksAt.anywhere (request.looksAt_resolve trivial trivial fun _ _ => trivial)

theorem looksAt_findTarget (matrix : Matrix) : LooksAt paths (request.findTarget matrix) :=
  (LooksAt.ofExcept _ _).bind fun _ => (LooksAt.noteAll _).bind fun _ => LooksAt.pure _

theorem looks_findTarget (matrix : Matrix) : Looks (request.findTarget matrix) :=
  LooksAt.anywhere (request.looksAt_findTarget matrix)

theorem looksAt_sign (key : ∀ p, request.key = .file p → paths p) (artifact : Bytes)
    (d : Descriptor) : LooksAt paths (request.sign artifact d) := by
  unfold sign
  refine (KeySource.looksAt_load key).bind fun handle => ?_
  exact (LooksAt.ofExcept _ _).bind fun _ => (LooksAt.note _).bind fun _ => LooksAt.pure _

theorem looks_sign (artifact : Bytes) (d : Descriptor) : Looks (request.sign artifact d) :=
  LooksAt.anywhere (request.looksAt_sign (fun _ _ => trivial) artifact d)

theorem compile_moves {machine : Machine} (spares : machine.Spares K) (project : Project)
    (d : Descriptor) (target : Target) :
    Moves (Undisturbed K) (request.compile machine project d target) := by
  have read : ∀ toolchain : Toolchain, Moves (Undisturbed K) (do
      let artifact ← toolchain.compile machine ⟨project.sourceDir, d, target.entry⟩
      Action.ask (·.read artifact)) := fun toolchain =>
    Undisturbed.bind (Toolchain.compile_moves spares _ toolchain)
      fun _ => Undisturbed.of_looks (Looks.ask _)
  unfold compile
  cases request.toolchain with
  | some toolchain => exact read toolchain
  | none =>
      exact Undisturbed.bind (Undisturbed.of_looks (Looks.ofExcept _ _)) read

end BuildRequest

end ModulePackaging
