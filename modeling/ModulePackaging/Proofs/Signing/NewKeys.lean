import ModulePackaging.Proofs.Digits
import ModulePackaging.Proofs.Encodings
import ModulePackaging.Proofs.Files.Lockstep
import ModulePackaging.Proofs.Files.Storing
import ModulePackaging.Proofs.Pieces
import ModulePackaging.Signing.KeyFile

/-!
# New keys

What making a key of a seed leaves behind. It is refused where something is in the way and may not
be overwritten, and then nothing changes. Otherwise the file holds the seed in a form that is never
taken for an armoured key, and is loaded as the key that was made, whatever the seed is. A new file
is for its owner only; one that is overwritten keeps the mode it had, whatever that let others do.
-/

namespace ModulePackaging

open Files Files.Tree Action

/-! ## Seeds in files -/

namespace Text

/-- A text without blanks is what trimming leaves of it with blanks behind it. -/
theorem trimmed_append {t blanks : Text} (none : ∀ c ∈ t, c.isBlank = false)
    (all : ∀ c ∈ blanks, c.isBlank = true) : (t ++ blanks).trimmed = t := by
  have behind : (t ++ blanks).reverse.dropWhile CodePoint.isBlank =
      t.reverse.dropWhile CodePoint.isBlank := by
    rw [List.reverse_append,
      List.dropWhile_append_of_pos fun c inside => all c (List.mem_reverse.mp inside)]
  cases t with
  | nil =>
      rw [trimmed, trimmedStart, List.nil_append, List.dropWhile_eq_nil_iff.mpr all]
      rfl
  | cons c rest =>
      have front : ¬ c.isBlank = true := by simp [none c List.mem_cons_self]
      have own : trimmed (c :: rest) = c :: rest := trimmed_of_none none
      rw [trimmed, trimmedStart, List.dropWhile_cons_of_neg front] at own
      rw [trimmed, trimmedStart, List.cons_append, List.dropWhile_cons_of_neg front,
        ← List.cons_append, trimmedEnd, behind]
      exact own

/-- An ASCII text is read back from its bytes. -/
theorem ofAsciiBytes?_map {t : Text} (ascii : ∀ c ∈ t, c.val < 0x80) :
    ofAsciiBytes? (t.map fun c => c.val.toUInt8) = some t := by
  have byte : ∀ c ∈ t, c.val.toUInt8.toNat = c.val := fun c inside =>
    UInt8.toNat_ofNat_of_lt' ((ascii c inside).trans (by decide))
  have low : (t.map fun c => c.val.toUInt8).all (· < 0x80) = true := by
    rw [List.all_map, List.all_eq_true]
    intro c inside
    have small := ascii c inside
    rw [← byte c inside] at small
    exact decide_eq_true (UInt8.lt_iff_toNat_lt.mpr small)
  rw [ofAsciiBytes?, if_pos low, List.map_map]
  refine congrArg some ((List.map_congr_left fun c inside => ?_).trans (List.map_id t))
  show CodePoint.ofNat c.val.toUInt8.toNat = c
  rw [byte c inside, CodePoint.ofNat_val]

end Text

namespace KeyFile

/-- The bytes of the file of a new key. -/
def bytes (key : SigningKey) : Bytes := (write key).map fun c => c.val.toUInt8

/-- Bytes without a dash hold no mark of an armoured file. -/
theorem isArmoured_of_notMem {content : Bytes} (none : (0x2D : UInt8) ∉ content) :
    isArmoured content = false := by
  induction content with
  | nil => rfl
  | cons b rest ih =>
      rw [List.mem_cons, not_or] at none
      have dash : ((0x2D : UInt8) == b) = false := by simpa using none.1
      have start : mark.isPrefixOf (b :: rest) = false := by
        rw [mark, List.isPrefixOf, dash, Bool.false_and]
      rw [isArmoured, start, Bool.false_or]
      exact ih none.2

/-- The bytes that a seed is written with are neither blanks nor dashes. -/
theorem plain_of_mem_encode {seed : Bytes} {c : CodePoint} (h : c ∈ Base64.encode seed) :
    isSpace c.val.toUInt8 = false ∧ c.val.toUInt8 ≠ 0x2D ∧ c.isBlank = false := by
  have letters : ∀ n : Fin 64, isSpace (Base64.letter n).val.toUInt8 = false ∧
      (Base64.letter n).val.toUInt8 ≠ 0x2D ∧ 0x20 < (Base64.letter n).val := by decide
  have low := Base64.ascii_of_mem_encode seed c h
  rcases Base64.mem_encode h with rfl | ⟨n, small, rfl⟩
  · exact ⟨by decide, by decide, CodePoint.isBlank_of_printing (by decide) low⟩
  · obtain ⟨space, dash, printing⟩ := letters ⟨n, small⟩
    exact ⟨space, dash, CodePoint.isBlank_of_printing printing low⟩

theorem bytes_ed25519 (seed : Bytes) : bytes (.ed25519 seed) =
    (Base64.encode seed).map (fun c => c.val.toUInt8) ++ [0x0A] :=
  List.map_append

/-- The file of a seed is not taken for an armoured key. -/
theorem isArmoured_bytes (seed : Bytes) : isArmoured (bytes (.ed25519 seed)) = false := by
  rw [bytes_ed25519]
  apply isArmoured_of_notMem
  intro inside
  rcases List.mem_append.mp inside with letter | line
  · obtain ⟨c, member, dash⟩ := List.mem_map.mp letter
    exact (plain_of_mem_encode member).2.1 dash
  · exact absurd line (by decide)

/-- The file of a seed is read as the key of the seed. -/
theorem ofSeedFile_bytes {seed : Bytes} (size : seed.length = SigningKey.seedSize) :
    ofSeedFile (bytes (.ed25519 seed)) = .ok (.ed25519 seed) := by
  have line : ∀ c ∈ Text.ofString "\n", c.val < 0x80 ∧ c.isBlank = true :=
    List.forall_mem_singleton.mpr ⟨by decide, by decide⟩
  have ascii : ∀ c ∈ write (.ed25519 seed), c.val < 0x80 := by
    intro c inside
    rcases List.mem_append.mp inside with letter | last
    · exact Base64.ascii_of_mem_encode seed c letter
    · exact (line c last).1
  have trimmed : (write (.ed25519 seed)).trimmed = Base64.encode seed :=
    Text.trimmed_append (fun c inside => (plain_of_mem_encode inside).2.2)
      fun c inside => (line c inside).2
  unfold ofSeedFile bytes
  rw [Text.ofAsciiBytes?_map ascii]
  simp only
  rw [trimmed, Base64.decode_encode]
  simp only
  rw [if_pos size]

/-- Whatever the password, the file of a seed holds the key of the seed. -/
theorem parse_bytes {seed : Bytes} (size : seed.length = SigningKey.seedSize)
    (password : Option Bytes) : parse (bytes (.ed25519 seed)) password = .ok (.ed25519 seed) := by
  have some : (bytes (.ed25519 seed)).all isSpace = false := by
    -- a seed has a first byte, and so its file a first letter
    obtain ⟨a, rest, rfl⟩ := List.exists_cons_of_length_pos
      (Nat.lt_of_lt_of_eq (show 0 < SigningKey.seedSize by decide) size.symm)
    obtain ⟨c, letters, form⟩ : ∃ c letters, Base64.encode (a :: rest) = c :: letters := by
      match rest with
      | [] => exact ⟨_, _, rfl⟩
      | [_] => exact ⟨_, _, rfl⟩
      | _ :: _ :: _ => exact ⟨_, _, rfl⟩
    have first : c ∈ Base64.encode (a :: rest) := form ▸ List.mem_cons_self
    rw [bytes_ed25519, form, List.map_cons, List.cons_append, List.all_cons,
      (plain_of_mem_encode first).1, Bool.false_and]
  rw [parse, some, isArmoured_bytes]
  exact ofSeedFile_bytes size

/-- A key is loaded from a file that a path leads to by reading what is in it. -/
theorem outcome_load {p : Path} {w : Workspace} {content : Bytes} {mode : Nat}
    (there : w.files.lookup p = .ok (some (.file content mode))) (password : Option Bytes) :
    (load p password).outcome w =
      ((parse content password).mapError (KeyFileError.toFault p), w) := by
  obtain ⟨l, found, file⟩ := resolve_of_lookup there
  have held : w.files.holds p = .ok true := by
    unfold Tree.holds
    rw [there]
    rfl
  have read : w.files.read p = .ok content := read_eq_ok.mpr ⟨l, mode, found, file⟩
  unfold load
  rw [outcome_bind, outcome_ask, held]
  show (Action.ask (·.read p) >>= _).outcome w = _
  rw [outcome_bind, outcome_ask, read]
  exact outcome_ofExcept _ _ w

end KeyFile

/-! ## Where a key is put -/

/-- The mode of a file that is written in a place: that of the file that is there, or the one asked
for. -/
def Files.Tree.modeAfter (tree : Tree) (l : Location) (asked : Nat) : Nat :=
  match tree.node? l with
  | some (.file _ kept) => kept
  | _ => asked

/-- Writing a file puts it in the place of its path, with the mode of a file that is there. -/
theorem Files.Tree.write_keeps_mode {tree tree' : Tree} {p : Path} {content : Bytes} {asked : Nat}
    (h : tree.write p content asked = .ok tree') :
    tree' = tree.set (tree.placeOf p) (.file content (tree.modeAfter (tree.placeOf p) asked)) := by
  unfold write at h
  obtain ⟨l, found, h⟩ := bind_eq_ok.mp h
  rw [← resolve_eq_placeOf found, modeAfter]
  split at h
  · rename_i there
    rw [there]
    exact (Except.ok.inj h).symm
  · exact absurd h throw_ne_ok
  · rename_i nothing
    split at h
    · rw [nothing]
      exact (Except.ok.inj h).symm
    · exact absurd h throw_ne_ok
    · exact absurd h throw_ne_ok

namespace Keygen

variable {options : KeygenOptions} {seed : Bytes} {w w' : Workspace}
  {result : Except Fault (SigningKey × List Text)}

/-- Whether something is in the way of a new key and may not be overwritten. -/
def IsRefused (options : KeygenOptions) (tree : Tree) : Prop :=
  (∃ node, tree.lookup options.out = .ok (some node)) ∧ options.force = false

/-- The refusal to overwrite. -/
def refusal (options : KeygenOptions) : Fault :=
  .badValue ("refusing to overwrite existing key file: " ++ options.out.toText)

/-- What a run ends with, and leaves, that makes the key of a seed. The key is told as it was asked
for; the file at its path has a mode and holds the seed, and is loaded as the same key with any
password, since it does not look armoured. -/
structure IsMade (options : KeygenOptions) (seed : Bytes) (mode : Nat)
    (result : Except Fault (SigningKey × List Text)) (w' : Workspace) : Prop where
  told : result = .ok (.ed25519 seed, lines options (.ed25519 seed))
  file : w'.files.lookup options.out = .ok (some (.file (KeyFile.bytes (.ed25519 seed)) mode))
  plain : KeyFile.isArmoured (KeyFile.bytes (.ed25519 seed)) = false
  loads : ∀ password, (KeyFile.load options.out password).outcome w' = (.ok (.ed25519 seed), w')

/-- What a run does when nothing is in the way: it makes the directories and writes the file. -/
def make (options : KeygenOptions) (seed : Bytes) : Action (SigningKey × List Text) := do
  Action.makeDirectories options.out.parent
  Action.change (·.write options.out (KeyFile.bytes (.ed25519 seed)) mode)
  return (.ed25519 seed, lines options (.ed25519 seed))

/-- A run is refused, fails because its path cannot be looked at, or goes on to make the key. -/
theorem run_ends (scheme : options.algorithm = .ed25519)
    (size : seed.length = SigningKey.seedSize)
    (ended : (run options seed).outcome w = (result, w')) :
    IsRefused options w.files ∧ result = .error (refusal options) ∧ w' = w ∨
      ¬ IsRefused options w.files ∧
        ((∃ e, w.files.lookup options.out = .error e ∧ result = .error (.files e)) ∨
          (make options seed).outcome w = (result, w')) := by
  have key : keyOf options.algorithm seed = .ok (.ed25519 seed) := by
    rw [scheme]
    exact if_pos size
  unfold run Tree.holds at ended
  rw [outcome_bind, outcome_ask, key] at ended
  unfold IsRefused
  cases looked : w.files.lookup options.out with
  | error e =>
      rw [looked] at ended
      exact .inr ⟨by simp, .inl ⟨e, rfl, (Prod.mk.inj ended).1.symm⟩⟩
  | ok found =>
      rw [looked] at ended
      change (if found.isSome && !options.force then _ else _ : Action _).outcome w = _ at ended
      cases taken : found.isSome && !options.force with
      | true =>
          rw [taken] at ended
          obtain ⟨told, same⟩ := Prod.mk.inj ended
          obtain ⟨there, kept⟩ := Bool.and_eq_true_iff.mp taken
          obtain ⟨node, rfl⟩ := Option.isSome_iff_exists.mp there
          exact .inl ⟨⟨⟨node, rfl⟩, by simpa using kept⟩, told.symm, same.symm⟩
      | false =>
          rw [taken] at ended
          refine .inr ⟨?_, .inr ended⟩
          rintro ⟨⟨node, same⟩, kept⟩
          rw [Except.ok.inj same, kept] at taken
          exact absurd taken (by simp)

/-- A run that goes on fails because of the files, or makes the key of the seed. -/
theorem make_ends (sound : w.files.IsSound) (size : seed.length = SigningKey.seedSize)
    (ended : (make options seed).outcome w = (result, w')) :
    (∃ e, result = .error (.files e)) ∨
      IsMade options seed (w.files.modeAfter (w.files.placeOf options.out) mode) result w' := by
  have made := makeDirectories_extends w.files options.out.parent
  unfold make at ended
  rw [outcome_bind, outcome_makeDirectories] at ended
  generalize (w.files.makeDirectories options.out.parent).1 = tree at made ended
  cases refusal : (w.files.makeDirectories options.out.parent).2 with
  | some e =>
      rw [refusal] at ended
      exact .inl ⟨e, (Prod.mk.inj ended).1.symm⟩
  | none =>
      rw [refusal] at ended
      simp only at ended
      rw [outcome_bind, outcome_change] at ended
      cases written : tree.write options.out (KeyFile.bytes (.ed25519 seed)) mode with
      | error e =>
          rw [written] at ended
          exact .inl ⟨e, (Prod.mk.inj ended).1.symm⟩
      | ok files =>
          rw [written] at ended
          obtain ⟨told, rfl⟩ := Prod.mk.inj ended
          obtain ⟨l, _, found, _, notTop, other, _⟩ := write_eq_ok written
          obtain rfl := resolve_eq_placeOf found
          have place : tree.placeOf options.out = w.files.placeOf options.out := by
            rw [placeOf, placeOf, made.startOf]
          have evolves : Evolves (fun _ => True) (fun _ => False) tree files :=
            write_evolves (made.sound sound) written trivial
          -- no directory was made in the place, so what is there was there before
          have mode : tree.modeAfter (tree.placeOf options.out) mode =
              w.files.modeAfter (w.files.placeOf options.out) mode := by
            rcases made.kept (tree.placeOf options.out) with same | ⟨_, _, directory⟩
            · rw [modeAfter, modeAfter, same, place]
            · exact absurd directory other
          have file : files.lookup options.out = .ok (some (.file (KeyFile.bytes (.ed25519 seed))
              (w.files.modeAfter (w.files.placeOf options.out) Keygen.mode))) := by
            rw [lookup_of_resolve (evolves.resolve found), write_keeps_mode written,
              node?_set_self notTop, mode]
          refine .inr ⟨told.symm, file, KeyFile.isArmoured_bytes seed, fun password => ?_⟩
          rw [KeyFile.outcome_load file, KeyFile.parse_bytes size]
          rfl

/-- A run that goes on makes the key where a file is, and where nothing is in a directory. -/
theorem make_of_resolve {l : Location} (sound : w.files.IsSound)
    (size : seed.length = SigningKey.seedSize) (found : w.files.resolve options.out = .ok l)
    (other : w.files.node? l ≠ some .directory)
    (ended : (make options seed).outcome w = (result, w')) :
    IsMade options seed (w.files.modeAfter (w.files.placeOf options.out) mode) result w' := by
  refine (make_ends sound size ended).resolve_left ?_
  have some : options.out.parts ≠ [] := by
    intro none
    obtain rfl := resolve_eq_placeOf found
    rw [placeOf, none] at other
    exact other (sound.start options.out)
  obtain ⟨m, toParent, directory⟩ := parent_of_resolve found some
  obtain ⟨kept, written⟩ := exists_write (KeyFile.bytes (.ed25519 seed)) mode found other
    (directory_above sound found)
  unfold make at ended
  rw [outcome_bind, outcome_makeDirectories,
    makeDirectories_of_directory toParent directory] at ended
  simp only at ended
  rw [outcome_bind, outcome_change, written] at ended
  rintro ⟨e, failed⟩
  rw [failed] at ended
  exact absurd (Prod.mk.inj ended).1 (by simp)

end Keygen

namespace Sample

open Keygen

/-- A workspace with a key file of some mode. -/
def keyed (mode : Nat) : Workspace where
  files := {
    home := ["p"]
    nodes := [(["p"], .directory), (["p", "key"], .file [0x6F, 0x6C, 0x64, 0x0A] mode)] }
  log := []
  mark := "1"

/-- A key that is wanted in that file, over whatever is there. -/
def rotation : KeygenOptions := ⟨Path.ofText "key", .ed25519, false, false, true⟩

/-- The seed of the bytes 0 to 31. -/
def firstSeed : Bytes := (List.range 32).map Nat.toUInt8

theorem isSound_keyed (mode : Nat) : (keyed mode).files.IsSound := by
  refine isSound_of_nodes (by rfl) ?_
  exact List.forall_mem_cons.mpr ⟨rfl, List.forall_mem_singleton.mpr rfl⟩

end Sample

end ModulePackaging
