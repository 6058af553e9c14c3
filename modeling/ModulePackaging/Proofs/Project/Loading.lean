import ModulePackaging.Project.Config
import ModulePackaging.Proofs.Actions
import ModulePackaging.Proofs.Files.Tree
import ModulePackaging.Proofs.Json.Limits

/-!
# Loading a project

A project file that can be read gives a project or a problem of validation that names the part of
the file it is about. Two things escape that: bytes that are not UTF-8, and the limits of the reader
of JSON. No other fault is possible, whatever the bytes are.
-/

namespace ModulePackaging

open Files Files.Tree Action

/-- A problem of validation that tells which part of the input it is about. -/
def Fault.NamesField (fault : Fault) : Prop :=
  ∃ p, fault = .problem p ∧ p.kind = .validation ∧ p.field.isSome = true

theorem ConfigError.namesField_toFault (e : ConfigError) : e.toFault.NamesField :=
  ⟨e.toProblem, rfl, rfl, rfl⟩

namespace Project

variable {source dir : Path} {w : Workspace} {bytes : Bytes} {text : Text} {fault : Fault}

/-- The project file for a source: the one in the directory, or the source itself. -/
def fileAt (files : Tree) (source : Path) : Path :=
  match files.isDirectory source with
  | .ok true => source / filename
  | _ => source

/-- The text that the bytes of a project file are read as. -/
def textOf (bytes : Bytes) : Except Undecodable Text :=
  (Utf8.decode bytes).map Text.unifyLineEnds

/-- The project that the bytes of a project file hold, for a source directory. -/
def ofBytes (dir : Path) (bytes : Bytes) : Except Fault Project := do
  let text ← (textOf bytes).mapError .undecodable
  let value ← (Json.read text).mapError readFault
  (ofJson dir value).mapError ConfigError.toFault

/-- A path to a file that can be read is looked up without a refusal. -/
theorem lookup_of_read {tree : Tree} {p : Path} (h : tree.read p = .ok bytes) :
    ∃ mode, tree.lookup p = .ok (some (.file bytes mode)) := by
  obtain ⟨l, mode, found, there⟩ := read_eq_ok.mp h
  refine ⟨mode, ?_⟩
  rw [lookup, resolve_eq_ok.mp found]
  exact congrArg Except.ok there

/-- What follows the choice of the file: the project of its bytes. -/
theorem outcome_rest {file : Path} (h : w.files.read file = .ok bytes) :
    (do
      if !(← Action.ask (·.holds file)) then throw (ConfigError.notFound file).toFault
      let value ← Action.ofExcept readFault (Json.read (← Action.readText file))
      Action.ofExcept ConfigError.toFault (ofJson file.parent value)).outcome w =
      (ofBytes file.parent bytes, w) := by
  obtain ⟨mode, found⟩ := lookup_of_read h
  have holds : w.files.holds file = .ok true := by
    rw [Tree.holds, found]
    rfl
  have read : (Action.readText file).outcome w = ((textOf bytes).mapError .undecodable, w) := by
    unfold Action.readText textOf
    rw [outcome_bind, outcome_ask, h]
    simp only [mapError_ok]
    rw [outcome_bind, outcome_ofExcept]
    cases Utf8.decode bytes <;> rfl
  rw [outcome_bind, outcome_ask, holds]
  simp only [mapError_ok, Bool.not_true, Bool.false_eq_true, if_false]
  rw [outcome_bind, read]
  unfold ofBytes
  cases textOf bytes with
  | error e => rfl
  | ok text =>
      simp only [mapError_ok]
      rw [outcome_bind, outcome_ofExcept]
      simp only [bind, Except.bind]
      cases (Json.read text).mapError readFault with
      | error e => rfl
      | ok value => exact outcome_ofExcept _ _ w

/-- A project whose file can be read is loaded as the bytes of the file tell. -/
theorem outcome_load (readable : w.files.read (fileAt w.files source) = .ok bytes) :
    (load source).outcome w = (ofBytes (fileAt w.files source).parent bytes, w) := by
  unfold load
  rw [outcome_bind, outcome_ask]
  unfold fileAt at readable ⊢
  cases asked : w.files.isDirectory source with
  | error e =>
      rw [asked] at readable
      obtain ⟨mode, found⟩ := lookup_of_read readable
      rw [Tree.isDirectory, found] at asked
      exact absurd asked (by simp [bind, Except.bind, pure, Except.pure])
  | ok there =>
      rw [asked] at readable
      simp only [mapError_ok]
      cases there with
      | true => exact outcome_rest readable
      | false => exact outcome_rest readable

/-! ## What escapes -/

/-- The faults that do not tell of the project: the bytes are no text, or the text goes beyond a
limit of the reader. -/
inductive Escapes (bytes : Bytes) : Fault → Prop
  | undecodable {e : Undecodable} (h : textOf bytes = .error e) : Escapes bytes (.undecodable e)
  | limit {text : Text} {e : Json.ReadError} (h : textOf bytes = .ok text)
      (refused : Json.read text = .error e) (kind : e.IsLimit) : Escapes bytes (.json e)

theorem Escapes.not_namesField (h : Escapes bytes fault) : ¬ fault.NamesField := by
  rintro ⟨p, same, _⟩
  cases h <;> exact absurd same (by simp)

theorem Escapes.ofBytes_eq (h : Escapes bytes fault) (dir : Path) :
    ofBytes dir bytes = .error fault := by
  cases h with
  | undecodable h => rw [ofBytes, h, mapError_error]; rfl
  | @limit text e h refused kind =>
      rw [ofBytes, h, mapError_ok]
      simp only [bind, Except.bind]
      rw [refused, mapError_error]
      cases e with
      | defect what position line column => exact absurd kind id
      | tooLong n => rfl
      | tooDeep container => rfl

/-- Bytes that are refused name a field, or escape. -/
theorem namesField_or_escapes (h : ofBytes dir bytes = .error fault) :
    fault.NamesField ∨ Escapes bytes fault := by
  unfold ofBytes at h
  rcases bind_eq_error.mp h with undecodable | ⟨text, decoded, h⟩
  · obtain ⟨e, failed, rfl⟩ := mapError_eq_error.mp undecodable
    exact .inr (.undecodable failed)
  have decoded := mapError_eq_ok.mp decoded
  rcases bind_eq_error.mp h with unread | ⟨value, _, h⟩
  · obtain ⟨e, refused, rfl⟩ := mapError_eq_error.mp unread
    cases e with
    | defect what position line column => exact .inl (ConfigError.namesField_toFault _)
    | tooLong n => exact .inr (.limit decoded refused trivial)
    | tooDeep container => exact .inr (.limit decoded refused trivial)
  · obtain ⟨e, _, rfl⟩ := mapError_eq_error.mp h
    exact .inl (ConfigError.namesField_toFault e)

/-- A text without long numbers and without many brackets lets nothing escape. -/
theorem not_escapes (decoded : textOf bytes = .ok text)
    (short : ¬ Json.HasDigits (Decimal.digitLimit + 1) text)
    (shallow : Json.openings text ≤ Json.nestingLimit) : ¬ Escapes bytes fault := by
  intro h
  cases h with
  | undecodable failed => exact absurd (failed.symm.trans decoded) (by simp)
  | @limit text' e same refused kind =>
      obtain rfl := Except.ok.inj (same.symm.trans decoded)
      have due := Json.isDueTo_of_read refused
      cases e with
      | defect what position line column => exact kind
      | tooLong n => exact short (due.2.of_le due.1)
      | tooDeep container => exact Nat.not_lt.mpr shallow due

/-- A project file that can be read is refused with a problem that names a field, or else as its
bytes escape, and the files stay as they are. What escapes is due to the bytes: they are not UTF-8,
or they hold a number of too many digits or more brackets than can be nested. -/
theorem load_names_field_unless_escapes
    (readable : w.files.read (fileAt w.files source) = .ok bytes) :
    ((load source).outcome w).2 = w ∧
    (∀ fault, ((load source).outcome w).1 = .error fault →
      fault.NamesField ∨ Escapes bytes fault) ∧
    (∀ fault, Escapes bytes fault →
      ((load source).outcome w).1 = .error fault ∧ ¬ fault.NamesField) ∧
    ∀ text, textOf bytes = .ok text → ¬ Json.HasDigits (Decimal.digitLimit + 1) text →
      Json.openings text ≤ Json.nestingLimit → ∀ fault, ¬ Escapes bytes fault := by
  rw [outcome_load readable]
  exact ⟨rfl, fun _ => namesField_or_escapes,
    fun _ h => ⟨h.ofBytes_eq _, h.not_namesField⟩,
    fun _ decoded short shallow _ => not_escapes decoded short shallow⟩

end Project

namespace Sample

open Project

/-- A directory with a project file of some bytes. -/
def holding (bytes : Bytes) : Workspace where
  files := {
    home := ["p"]
    nodes := [(["p"], .directory), (["p", "simpack.json"], .file bytes defaultMode)] }
  log := []
  mark := "1"

/-- A project whose second resource has a number for its path. -/
def numberedPath : Bytes :=
  ("\x7b\"format\": \"simpack-build\", \"version\": 0.0,\r\n \"package\": \x7b\x7d, " ++
    "\"resources\": [\"a\\\\b\", \x7b\"path\": 1\x7d]\x7d").toUTF8.toList

set_option maxRecDepth 100000 in
/-- The project with the number is refused with a problem that names a field. -/
theorem load_names_field_of_numbered :
    ∃ fault, ((load (Path.ofText ".")).outcome (holding numberedPath)).1 = .error fault ∧
      fault.NamesField := by
  have readable : (holding numberedPath).files.read
      (fileAt (holding numberedPath).files (Path.ofText ".")) = .ok numberedPath := by rfl
  obtain ⟨_, refuses, _, plain⟩ := load_names_field_unless_escapes readable
  have failed : (load (Path.ofText ".")).fails (holding numberedPath) (fun _ => true) = true := by
    decide +kernel
  obtain ⟨fault, w', ended, _⟩ := exists_of_fails failed
  have refused := congrArg Prod.fst ended
  have read : passes (textOf numberedPath) (fun text =>
      text.length ≤ 4300 && Json.openings text ≤ Json.nestingLimit) = true := by decide +kernel
  obtain ⟨text, decoded, size⟩ := exists_of_passes read
  obtain ⟨brief, shallow⟩ := Bool.and_eq_true_iff.mp size
  have short : ¬ Json.HasDigits (Decimal.digitLimit + 1) text := by
    rintro ⟨digits, inside, long, _⟩
    exact Nat.not_le.mpr long (inside.length_le.trans (of_decide_eq_true brief))
  exact ⟨fault, refused, (refuses fault refused).resolve_right
    (plain text decoded short (of_decide_eq_true shallow) fault)⟩

set_option maxRecDepth 100000 in
/-- A project file of one byte that is not UTF-8 is refused without a field. -/
theorem strayByte_names_no_field :
    (holding [0xFF]).files.read (fileAt (holding [0xFF]).files (Path.ofText ".")) = .ok [0xFF] ∧
      ∃ fault, ((load (Path.ofText ".")).outcome (holding [0xFF])).1 = .error fault ∧
        ¬ fault.NamesField := by
  refine ⟨by rfl, _, rfl, ?_⟩
  rintro ⟨p, same, _⟩
  exact absurd same (by simp)

end Sample

end ModulePackaging
