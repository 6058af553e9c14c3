import Mathlib.Logic.Relation
import ModulePackaging.Proofs.Build.AllOrNothing
import ModulePackaging.Proofs.Signing.Binding

/-!
# What a build ships can be installed

The file that a successful build leaves is read back as the archive of its result, and its signature
is accepted if the scheme of the key accepts what the key signs. The exceptions are those of reading
a committed archive: a resource whose path has a null character, and a file whose end looks like that
of a wide container.
-/

namespace ModulePackaging

open Files Action

/-! ## The entry that a request resolves to -/

namespace Matrix

variable {m : Matrix} {e : ApiEntry} {requested : Version} {target : Target}

theorem mem_of_newest (h : m.newest = .ok e) : e ∈ m.entries := by
  unfold newest at h
  split at h
  · rename_i last
    obtain rfl := Except.ok.inj h
    exact List.mem_of_getLast? last
  · exact absurd h (by simp)

theorem mem_of_resolveWithin (h : m.resolveWithin requested = .ok target) :
    target.entry ∈ m.entries := by
  unfold resolveWithin at h
  obtain ⟨place, _, h⟩ := bind_eq_ok.mp h
  split at h
  · exact absurd h throw_ne_ok
  · rename_i e here
    have member : e ∈ m.entries := List.mem_of_getElem? here
    obtain ⟨same, _, h⟩ := bind_eq_ok.mp h
    split at h
    · obtain rfl := Except.ok.inj h
      exact member
    · split at h
      · obtain rfl := Except.ok.inj h
        exact member
      · exact absurd h throw_ne_ok

/-- A request resolves to an entry of the matrix. -/
theorem mem_of_resolveJson {value : Json} (h : m.resolveJson value = .ok target) :
    target.entry ∈ m.entries := by
  unfold resolveJson at h
  obtain ⟨_, _, h⟩ := bind_eq_ok.mp h
  split at h
  · exact absurd h throw_ne_ok
  unfold resolve at h
  obtain ⟨oldest, _, h⟩ := bind_eq_ok.mp h
  obtain ⟨newest, last, h⟩ := bind_eq_ok.mp h
  obtain ⟨below, _, h⟩ := bind_eq_ok.mp h
  split at h
  · exact absurd h throw_ne_ok
  obtain ⟨above, _, h⟩ := bind_eq_ok.mp h
  split at h
  · obtain rfl := Except.ok.inj h
    exact mem_of_newest last
  · exact mem_of_resolveWithin h

end Matrix

/-! ## Builds -/

variable {machine : Machine} {matrix : Matrix} {request : BuildRequest} {built : BuildResult}
  {w w' : Workspace}

/-- The files that commands of a machine can leave. -/
def Machine.Reaches (machine : Machine) : Tree → Tree → Prop :=
  Relation.ReflTransGen fun tree tree' =>
    ∃ invocation outcome, machine invocation tree = .ok (outcome, tree')

instance : IsPreorder Tree machine.Reaches where
  refl _ := Relation.ReflTransGen.refl
  trans _ _ _ := Relation.ReflTransGen.trans

/-- The key that signs a build: what its source holds when commands may have run. -/
def BuildRequest.IsSignedWith (request : BuildRequest) (machine : Machine) (w : Workspace)
    (key : SigningKey) : Prop :=
  ∃ handle v v', machine.Reaches w.files v.files ∧
    request.key.load.outcome v = (.ok handle, v') ∧ handle.signingKey = .ok key

/-- A build that succeeds has put together what it gives, and its file holds the archive. -/
theorem build_gives (h : (build machine matrix request).outcome w = (.ok built, w')) :
    ∃ s bytes, request.Prepares matrix machine.Reaches w s ∧ built = s.result ∧
      s.archive.toBytes = .ok bytes ∧ w'.files.read s.path = .ok bytes := by
  have spares : machine.Spares machine.Reaches := fun invocation _ outcome _ ran =>
    Relation.ReflTransGen.single ⟨invocation, outcome, ran⟩
  exact build_succeeds spares h

/-- Reads an archive and checks its signature. -/
def Archive.readVerified (p : Path) (trusted : Option (List Bytes)) : Action (Archive × Bool) := do
  let archive ← read p
  return (archive, ← archive.verify trusted)

theorem Archive.outcome_readVerified (p : Path) (trusted : Option (List Bytes)) (w : Workspace) :
    ((readVerified p trusted).outcome w).1 =
      (readFrom w.files p).map fun archive => (archive, archive.isGenuine trusted) := by
  unfold readVerified read
  rw [outcome_bind, outcome_bind, outcome_get]
  simp only
  rw [outcome_ofExcept]
  cases readFrom w.files p with
  | error e => rfl
  | ok archive =>
      show _ = Except.ok (archive, archive.isGenuine trusted)
      simp only [mapError_ok]
      unfold verify
      rw [outcome_bind]
      cases archive.isGenuine trusted <;> rfl

/-- The archive of a build is read back from its file as it was, and the check of its signature says
what the scheme of the key says of a signature by the key itself, if the archive is readable;
otherwise it is refused as broken. -/
theorem build_installable (canonical : ∀ e ∈ matrix.entries, e.IsCanonical)
    (narrow : built.archive.IsNarrow)
    (h : (build machine matrix request).outcome w = (.ok built, w')) :
    ∃ key hash bytes, request.IsSignedWith machine w key ∧
      built.archive.signature = Signing.blockFor key hash ∧
      w'.files.read built.path = .ok bytes ∧
      (built.archive.IsReadable bytes →
        ((Archive.readVerified built.path (some [key.identity])).outcome w').1 =
          .ok (built.archive, key.isAccepted hash)) ∧
      (¬ built.archive.IsReadable bytes →
        ∃ problem, ((Archive.readVerified built.path (some [key.identity])).outcome w').1 =
          .error (.problem problem) ∧ problem.kind = .integrity) := by
  obtain ⟨s, bytes, prepared, rfl, written, stored⟩ := build_gives h
  obtain ⟨v, v', reached, loaded⟩ := prepared.key
  obtain ⟨key, hash, handled, block, genuine⟩ := Signing.verifyBlock_of_sign prepared.signed
  have entry : ∀ e, some s.target.entry = some e → e.IsCanonical := by
    intro e same
    obtain rfl := Option.some.inj same
    exact canonical _ (Matrix.mem_of_resolveJson prepared.target)
  obtain ⟨path, normal, laidOut, _, artifact, signature⟩ :=
    Archive.isLaidOut_of_signed prepared.signed entry prepared.assembled
  have checks : s.archive.isGenuine (some [key.identity]) = key.isAccepted hash := by
    unfold Archive.isGenuine
    rw [artifact, signature, laidOut.descriptor, genuine]
  refine ⟨key, hash, bytes, ⟨s.handle, v, v', reached, loaded, handled⟩, signature.trans block,
    stored, ?_, ?_⟩
  · intro readable
    rw [Archive.outcome_readVerified]
    show (Archive.readFrom w'.files s.path).map _ = _
    rw [Archive.readFrom_of_readable laidOut narrow written stored readable]
    show Except.ok (s.archive, _) = _
    rw [checks]
    rfl
  · intro unreadable
    rw [Archive.outcome_readVerified]
    show ∃ problem, (Archive.readFrom w'.files s.path).map _ = _ ∧ _
    obtain ⟨problem, refused, kind⟩ :=
      Archive.readFrom_of_not_readable laidOut narrow written stored unreadable
    rw [refused]
    exact ⟨problem, rfl, kind⟩

end ModulePackaging

/-! ## Of two projects one can be installed -/

namespace ModulePackaging.Sample

open Action

theorem isCanonical_matrix : ∀ e ∈ matrix.entries, e.IsCanonical := by
  intro e member
  obtain rfl := List.mem_singleton.mp member
  exact ⟨⟨"7.0.0", by rfl⟩, by rfl, by rfl⟩

/-- The project without resources is read back with a signature that is accepted. -/
theorem build_installable_of_project :
    ∃ built w', (build machine matrix request).outcome (workspace [] []) = (.ok built, w') ∧
      ((Archive.readVerified built.path (some [SigningKey.zero.identity])).outcome w').1 =
        .ok (built.archive, true) := by
  obtain ⟨built, w', outcome, run⟩ := exists_of_gives gives_project
  simp only [Bool.and_eq_true, decide_eq_true_eq, List.isEmpty_iff] at run
  obtain ⟨⟨⟨narrow, none⟩, stored⟩, accepted⟩ := run
  obtain ⟨bytes, stored, plain⟩ := exists_of_passes stored
  obtain ⟨key, hash, found, ⟨_, _, _, _, loaded, handled⟩, signature, read, back, _⟩ :=
    build_installable isCanonical_matrix narrow outcome
  obtain rfl := Except.ok.inj (stored.symm.trans read)
  obtain rfl := Except.ok.inj (Prod.mk.inj loaded).1
  obtain rfl := Except.ok.inj handled
  rw [signature] at accepted
  have given := back ⟨by simp [none], by simpa using plain⟩
  rw [show SigningKey.zero.isAccepted hash = true from accepted] at given
  exact ⟨built, w', outcome, given⟩

/-- A resource whose path has a null character. -/
def nullResource : Json := .obj [("path", .str [0x61, 0, 0x62]), ("source", .str "m.so")]

/-- Whether what was read was refused for a problem. -/
def isProblem (read : Except Fault Archive) : Bool :=
  match read with
  | .error (.problem _) => true
  | _ => false

set_option maxRecDepth 100000 in
/-- The project with that resource is built, and what is built is refused. -/
theorem null_not_installable :
    ∃ built w', (build machine matrix request).outcome (workspace [nullResource] []) =
        (.ok built, w') ∧
      ∃ problem, ((Archive.readVerified built.path (some [SigningKey.zero.identity])).outcome w').1 =
        .error (.problem problem) := by
  have run : (build machine matrix request).gives (workspace [nullResource] []) (fun built w' =>
      isProblem (Archive.readFrom w'.files built.path)) = true := by
    decide +kernel
  obtain ⟨built, w', outcome, run⟩ := exists_of_gives run
  refine ⟨built, w', outcome, ?_⟩
  rw [Archive.outcome_readVerified]
  unfold isProblem at run
  split at run
  · rename_i problem refused
    rw [refused]
    exact ⟨problem, rfl⟩
  · exact absurd run (by simp)

end ModulePackaging.Sample
