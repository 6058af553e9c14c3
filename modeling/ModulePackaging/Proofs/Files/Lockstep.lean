import ModulePackaging.Proofs.Files.Alike
import ModulePackaging.Proofs.Files.Names
import ModulePackaging.Proofs.Utf8

/-!
# The same operation in two trees

An operation that is done in two trees which its paths find alike is refused in both in the same
words, or done in both with the same at the locations that it owns. Elsewhere both trees keep what
they had, except that a directory which one of them had already is made in the other.
-/

namespace ModulePackaging

/-! ## The parent of a path that can name a file -/

/-- The last piece stands behind the separator. -/
theorem Text.joined_concat (sep : Text) {pieces : List Text} (some : pieces ≠ []) (last : Text) :
    Text.joined sep (pieces ++ [last]) = Text.joined sep pieces ++ (sep ++ last) := by
  induction pieces with
  | nil => exact absurd rfl some
  | cons piece rest ih =>
      cases rest with
      | nil => exact List.append_assoc _ _ _
      | cons next others =>
          show piece ++ sep ++ Text.joined sep (next :: others ++ [last]) = _
          rw [ih (by simp)]
          exact (List.append_assoc _ _ _).symm

namespace Path

/-- The text of a parent begins the text of its path, unless it is the dot that stands for
nothing. -/
theorem toText_parent (p : Path) : p.parent.toText = "." ∨ p.parent.toText <+: p.toText := by
  have start : p.anchor.text ++ Text.joined [slash] p.parent.parts <+:
      p.anchor.text ++ Text.joined [slash] p.parts := by
    refine (List.prefix_append_right_inj _).mpr ?_
    rcases List.eq_nil_or_concat p.parts with none | ⟨others, last, parts⟩
    · rw [parent, none]
      exact List.prefix_refl _
    · rw [parent, parts, List.concat_eq_append, List.dropLast_concat]
      by_cases first : others = []
      · rw [first]
        exact List.nil_prefix
      · rw [Text.joined_concat _ first]
        exact List.prefix_append _ _
  unfold toText
  simp only
  by_cases empty : p.anchor.text ++ Text.joined [slash] p.parent.parts = []
  · left
    rw [if_pos]
    exact List.isEmpty_iff.mpr empty
  · right
    have more : p.anchor.text ++ Text.joined [slash] p.parts ≠ [] := by
      intro none
      rw [none] at start
      exact empty (List.prefix_nil.mp start)
    have anchor : p.parent.anchor = p.anchor := rfl
    rw [anchor, if_neg fun none => empty (List.isEmpty_iff.mp none),
      if_neg fun none => more (List.isEmpty_iff.mp none)]
    exact start

end Path

namespace Files.Tree

variable {tree u v u' v' u'' v'' : Tree} {l m : Location} {names rest : List Text} {p q : Path}
  {own own' : Location → Prop}

theorem IsNamed.of_prefix (named : IsNamed p) (start : q.toText <+: p.toText) : IsNamed q := by
  obtain ⟨bytes, form, fits⟩ := named
  obtain ⟨more, whole⟩ := start
  unfold pathBytes at form
  split at form
  · exact absurd form (by simp)
  rename_i covered
  rw [Codec.firstMissing?_eq_none, ← whole] at covered
  simp only at form
  split at form
  · exact absurd form (by simp)
  rename_i noZero
  obtain rfl := Except.ok.inj form
  rw [← whole, List.flatMap_append] at fits noZero
  refine ⟨q.toText.flatMap Utf8.encodePoint, ?_, ?_⟩
  · unfold pathBytes
    rw [Codec.firstMissing?_eq_none.mpr fun c inside => covered c (List.mem_append_left _ inside)]
    simp only
    rw [if_neg]
    intro zero
    exact noZero (by simp_all)
  · rw [List.length_append] at fits
    omega

/-- The parent of a path that can name a file can name one too. -/
theorem IsNamed.parent (named : IsNamed p) : IsNamed p.parent := by
  rcases p.toText_parent with dot | start
  · refine ⟨[0x2E], ?_, by decide⟩
    unfold pathBytes
    rw [dot]
    rfl
  · exact named.of_prefix start

/-! ## What two trees are after the same operation -/

/-- Two trees before and after the same operation: at every location both keep what they had, or
have the same now where the operation owns the location, or have a directory now that the first did
not have and the second may have had. -/
structure Together (own : Location → Prop) (u v u' v' : Tree) : Prop where
  first : u'.home = u.home
  second : v'.home = v.home
  sound : u'.IsSound
  sound' : v'.IsSound
  node : ∀ l, (u'.node? l = u.node? l ∧ v'.node? l = v.node? l) ∨
    (own l ∧ v'.node? l = u'.node? l) ∨
    u.node? l = none ∧ (v.node? l = none ∨ v.node? l = some .directory) ∧
      u'.node? l = some .directory ∧ v'.node? l = some .directory

namespace Together

theorem refl (pair : Comparable u v) : Together own u v u v :=
  ⟨rfl, rfl, pair.first, pair.second, fun _ => .inl ⟨rfl, rfl⟩⟩

theorem mono (h : Together own u v u' v') (wider : ∀ l, own l → own' l) :
    Together own' u v u' v' where
  first := h.first
  second := h.second
  sound := h.sound
  sound' := h.sound'
  node l := (h.node l).imp_right (Or.imp_left fun here => ⟨wider l here.1, here.2⟩)

theorem comparable (h : Together own u v u' v') (pair : Comparable u v) : Comparable u' v' :=
  ⟨h.second.trans (pair.home.trans h.first.symm), h.sound, h.sound'⟩

/-- Where both trees have the same before, they have the same after. -/
theorem same (h : Together own u v u' v') (before : v.node? l = u.node? l) :
    v'.node? l = u'.node? l := by
  rcases h.node l with ⟨first, second⟩ | ⟨_, equal⟩ | ⟨_, _, first, second⟩
  · rw [first, second, before]
  · exact equal
  · rw [first, second]

theorem trans (h : Together own u v u' v') (k : Together own u' v' u'' v'') :
    Together own u v u'' v'' := by
  refine ⟨k.first.trans h.first, k.second.trans h.second, k.sound, k.sound', fun l => ?_⟩
  rcases k.node l with ⟨first, second⟩ | owned | ⟨missing, maybe, first, second⟩
  · rw [first, second]
    exact h.node l
  · exact .inr (.inl owned)
  · rcases h.node l with ⟨before, before'⟩ | ⟨here, _⟩ | ⟨_, _, made, _⟩
    · rw [before] at missing
      rw [before'] at maybe
      exact .inr (.inr ⟨missing, maybe, first, second⟩)
    · exact .inr (.inl ⟨here, second.trans first.symm⟩)
    · rw [made] at missing
      exact absurd missing (by simp)

theorem along (h : Together own u v u' v') (alike : AlikeAlong u v l names) :
    AlikeAlong u' v' l names := by
  intro done rest split
  rcases alike done rest split with same | ⟨⟨nothing, directory⟩, down⟩
  · exact .inl (h.same same)
  · rcases h.node (walk l done) with ⟨first, second⟩ | ⟨_, equal⟩ | ⟨_, _, first, second⟩
    · exact .inr ⟨⟨first.trans nothing, second.trans directory⟩, down⟩
    · exact .inl equal
    · exact .inl (second.trans first.symm)

theorem startOf (h : Together own u v u' v') (p : Path) : u'.startOf p = u.startOf p := by
  rw [Tree.startOf, Tree.startOf, h.first]

theorem placeOf (h : Together own u v u' v') (p : Path) : u'.placeOf p = u.placeOf p := by
  rw [Tree.placeOf, Tree.placeOf, h.startOf]

theorem alike (h : Together own u v u' v') (alike : Alike u v p) : Alike u' v' p where
  along := h.startOf p ▸ h.along alike.along
  place := h.placeOf p ▸ h.same alike.place

/-- Putting the same at a location that is owned. -/
theorem set (pair : Comparable u v) {node : Node} (some : l ≠ [])
    (above : u.node? l.dropLast = .some .directory) (above' : v.node? l.dropLast = .some .directory)
    (kept : u.node? l = .some .directory → node = .directory)
    (kept' : v.node? l = .some .directory → node = .directory) (here : own l) :
    Together own u v (u.set l node) (v.set l node) := by
  refine ⟨rfl, rfl, pair.first.set some above kept, pair.second.set some above' kept', fun m => ?_⟩
  by_cases same : m = l
  · rw [same]
    exact .inr (.inl ⟨here, by rw [node?_set_self some, node?_set_self some]⟩)
  · exact .inl ⟨node?_set_of_ne same _, node?_set_of_ne same _⟩

/-- A directory is made in both trees where neither has anything. -/
theorem made (pair : Comparable u v) (nothing : u.node? l = none) (nothing' : v.node? l = none)
    (above : u.node? l.dropLast = some .directory) (above' : v.node? l.dropLast = some .directory) :
    Together own u v (u.set l .directory) (v.set l .directory) := by
  have some := ne_nil_of_none nothing
  refine ⟨rfl, rfl, pair.first.set some above fun _ => rfl, pair.second.set some above' fun _ => rfl,
    fun m => ?_⟩
  by_cases here : m = l
  · rw [here, node?_set_self some, node?_set_self some]
    exact .inr (.inr ⟨nothing, .inl nothing', rfl, rfl⟩)
  · exact .inl ⟨node?_set_of_ne here _, node?_set_of_ne here _⟩

/-- A directory is made in the first tree where the second one has it already. -/
theorem caughtUp (pair : Comparable u v) (nothing : u.node? l = none)
    (directory : v.node? l = some .directory) (above : u.node? l.dropLast = some .directory) :
    Together own u v (u.set l .directory) v := by
  have some := ne_nil_of_none nothing
  refine ⟨rfl, rfl, pair.first.set some above fun _ => rfl, pair.second, fun m => ?_⟩
  by_cases here : m = l
  · rw [here, node?_set_self some]
    exact .inr (.inr ⟨nothing, .inr directory, rfl, directory⟩)
  · exact .inl ⟨node?_set_of_ne here _, rfl⟩

end Together

/-- The same operation in two trees: refused in both for the same reason, or done in both. -/
def Lockstep (own : Location → Prop) (u v : Tree) (ends ends' : Except Error Tree) : Prop :=
  (∃ e, ends = .error e ∧ ends' = .error e) ∨
    ∃ u' v', ends = .ok u' ∧ ends' = .ok v' ∧ Together own u v u' v'

/-! ## Operations on one location -/

/-- Above where a path leads there is a directory. -/
theorem directory_above (sound : tree.IsSound) (found : tree.resolve p = .ok l) :
    tree.node? l.dropLast = some .directory := by
  have followed := (locate_eq_ok.mp (resolve_eq_ok.mp found)).2
  have start : tree.node? (tree.startOf p).dropLast = some .directory :=
    sound.above _ (by simp [sound.start p])
  generalize tree.startOf p = k at followed start
  generalize p.parts = names at followed
  induction names generalizing k with
  | nil =>
      rw [follow, Except.ok.injEq] at followed
      exact followed ▸ start
  | cons name rest ih =>
      obtain ⟨directory, _, onward⟩ := follow_cons_ok.mp followed
      refine ih _ ?_ onward
      split
      · exact sound.above _ (by simp [start])
      · rwa [List.dropLast_concat]

theorem resolve_of_located (located : v.locate p = u.locate p) : v.resolve p = u.resolve p := by
  unfold resolve
  rw [located]

/-- A file is written in both trees, or in neither. -/
theorem write_lockstep (pair : Comparable u v) (located : v.locate p = u.locate p)
    (same : v.node? (u.placeOf p) = u.node? (u.placeOf p)) (here : own (u.placeOf p))
    (content : Bytes) (mode : Nat) :
    Lockstep own u v (u.write p content mode) (v.write p content mode) := by
  have resolved := resolve_of_located located
  unfold write
  rw [resolved]
  cases found : u.resolve p with
  | error e => exact .inl ⟨e, rfl, rfl⟩
  | ok l =>
      obtain rfl := resolve_eq_placeOf found
      have above := directory_above pair.first found
      have above' := directory_above pair.second (resolved.trans found)
      simp only [bind, Except.bind]
      rw [same]
      have put : ∀ kept, u.node? (u.placeOf p) ≠ some .directory →
          Together own u v (u.set (u.placeOf p) (.file content kept))
            (v.set (u.placeOf p) (.file content kept)) := by
        intro kept other
        refine Together.set pair ?_ above above' (fun there => absurd there other)
          (fun there => absurd (same ▸ there) other) here
        intro top
        exact other (by rw [top]; rfl)
      cases there : u.node? (u.placeOf p) with
      | none =>
          simp only [above, above']
          exact .inr ⟨_, _, rfl, rfl, put mode (by simp [there])⟩
      | some node =>
          cases node with
          | file old kept => exact .inr ⟨_, _, rfl, rfl, put kept (by simp [there])⟩
          | directory => exact .inl ⟨_, rfl, rfl⟩

/-- Where a path leads nowhere or something is already, no directory is made. -/
theorem makeDirectory_of_taken {e : Error} (found : tree.resolve p = .error e) :
    tree.makeDirectory p = .error e := by
  unfold makeDirectory
  rw [found]
  rfl

theorem makeDirectory_of_some {node : Node} (found : tree.resolve p = .ok l)
    (there : tree.node? l = some node) :
    tree.makeDirectory p = .error (.refused .taken p.toText) := by
  unfold makeDirectory
  rw [found]
  simp only [bind, Except.bind, there]
  rfl

theorem makeDirectory_of_none (sound : tree.IsSound) (found : tree.resolve p = .ok l)
    (nothing : tree.node? l = none) : tree.makeDirectory p = .ok (tree.set l .directory) := by
  unfold makeDirectory
  rw [found]
  simp only [bind, Except.bind, nothing, directory_above sound found]
  rfl

/-- A directory is made in both trees, or in neither. -/
theorem makeDirectory_lockstep (pair : Comparable u v) (located : v.locate p = u.locate p)
    (same : v.node? (u.placeOf p) = u.node? (u.placeOf p)) (here : own (u.placeOf p)) :
    Lockstep own u v (u.makeDirectory p) (v.makeDirectory p) := by
  have resolved := resolve_of_located located
  cases found : u.resolve p with
  | error e =>
      exact .inl ⟨e, makeDirectory_of_taken found, makeDirectory_of_taken (resolved.trans found)⟩
  | ok l =>
      obtain rfl := resolve_eq_placeOf found
      cases there : u.node? (u.placeOf p) with
      | some node =>
          exact .inl ⟨_, makeDirectory_of_some found there,
            makeDirectory_of_some (resolved.trans found) (same.trans there)⟩
      | none =>
          refine .inr ⟨_, _, makeDirectory_of_none pair.first found there,
            makeDirectory_of_none pair.second (resolved.trans found) (same.trans there), ?_⟩
          exact Together.set pair (ne_nil_of_none there) (directory_above pair.first found)
            (directory_above pair.second (resolved.trans found)) (fun _ => rfl) (fun _ => rfl) here

/-! ## Operations on two locations -/

/-- The two paths of an operation lead to the same in both trees. -/
theorem sourceAndTarget_of_located (pair : Comparable u v) (located : v.locate p = u.locate p)
    (located' : v.locate q = u.locate q)
    (same : v.node? (u.placeOf p) = u.node? (u.placeOf p)) :
    v.sourceAndTarget p q = u.sourceAndTarget p q := by
  unfold sourceAndTarget resolveOf
  rw [located, located']
  cases found : u.locate p with
  | error e => rfl
  | ok source =>
      cases source with
      | error e => rfl
      | ok s =>
          cases found' : u.locate q with
          | error e => rfl
          | ok target =>
              cases target with
              | error e => rfl
              | ok t =>
                  have above := directory_above pair.first (resolve_eq_ok.mpr found')
                  have above' := directory_above pair.second
                    (resolve_eq_ok.mpr (located'.trans found'))
                  simp only [bind, Except.bind, pure, Except.pure]
                  rw [placeOf_of_locate found, same, above, above']

/-- A file is moved in both trees, or in neither. -/
theorem replace_lockstep (pair : Comparable u v) (located : v.locate p = u.locate p)
    (located' : v.locate q = u.locate q)
    (same : v.node? (u.placeOf p) = u.node? (u.placeOf p))
    (same' : v.node? (u.placeOf q) = u.node? (u.placeOf q))
    (there : own (u.placeOf p)) (here : own (u.placeOf q)) :
    Lockstep own u v (u.replace p q) (v.replace p q) := by
  have paired := sourceAndTarget_of_located pair located located' same
  cases found : u.sourceAndTarget p q with
  | error e =>
      exact .inl ⟨e, replace_of_refused found, replace_of_refused (paired.trans found)⟩
  | ok ends =>
      obtain ⟨source, content, mode, target⟩ := ends
      have found' := paired.trans found
      obtain ⟨toSource, toTarget, file, _⟩ := sourceAndTarget_eq_ok.mp found
      obtain ⟨_, _, file', _⟩ := sourceAndTarget_eq_ok.mp found'
      rw [← resolve_eq_placeOf toTarget] at same' here
      rw [← resolve_eq_placeOf toSource] at there
      by_cases directory : u.node? target = some .directory
      · exact .inl ⟨_, replace_of_directory found directory,
          replace_of_directory found' (same'.trans directory)⟩
      have directory' : v.node? target ≠ some .directory := by
        rw [same']
        exact directory
      have done := replace_eq_ok.mpr ⟨_, _, _, _, found, directory, rfl⟩
      have done' := replace_eq_ok.mpr ⟨_, _, _, _, found', directory', rfl⟩
      have evolves : Evolves (fun _ => True) (fun _ => False) u _ :=
        replace_evolves pair.first done trivial trivial
      have evolves' : Evolves (fun _ => True) (fun _ => False) v _ :=
        replace_evolves pair.second done' trivial trivial
      refine .inr ⟨_, _, done, done', rfl, rfl, evolves.sound, evolves'.sound, fun m => ?_⟩
      rw [pair.first.node?_moved file directory, pair.second.node?_moved file' directory']
      by_cases isTarget : m = target
      · exact .inr (.inl ⟨isTarget ▸ here, by rw [if_pos isTarget, if_pos isTarget]⟩)
      by_cases isSource : m = source
      · exact .inr (.inl ⟨isSource ▸ there, by simp only [if_neg isTarget, if_pos isSource]⟩)
      · left
        constructor <;> rw [if_neg isTarget, if_neg isSource]

/-- A file gets a second place in both trees, or in neither. -/
theorem link_lockstep (pair : Comparable u v) (located : v.locate p = u.locate p)
    (located' : v.locate q = u.locate q)
    (same : v.node? (u.placeOf p) = u.node? (u.placeOf p))
    (same' : v.node? (u.placeOf q) = u.node? (u.placeOf q)) (here : own (u.placeOf q)) :
    Lockstep own u v (u.link p q) (v.link p q) := by
  have paired := sourceAndTarget_of_located pair located located' same
  unfold link
  rw [paired]
  cases found : u.sourceAndTarget p q with
  | error e => exact .inl ⟨e, rfl, rfl⟩
  | ok ends =>
      obtain ⟨source, content, mode, target⟩ := ends
      obtain ⟨_, toTarget, _, above⟩ := sourceAndTarget_eq_ok.mp found
      obtain ⟨_, _, _, above'⟩ := sourceAndTarget_eq_ok.mp (paired.trans found)
      obtain rfl := resolve_eq_placeOf toTarget
      simp only [bind, Except.bind]
      rw [same']
      cases there : u.node? (u.placeOf q) with
      | some node => exact .inl ⟨_, rfl, rfl⟩
      | none =>
          refine .inr ⟨_, _, rfl, rfl,
            Together.set pair (ne_nil_of_none there) above above' ?_ ?_ here⟩
          · simp [there]
          · simp [same', there]

/-! ## Making directories -/

/-- A directory that cannot be made in either tree, for the same reason, is there in both or in
neither. -/
theorem ensureDirectory_of_refused {e : Error} (pair : Comparable u v)
    (refused : u.makeDirectory p = .error e) (refused' : v.makeDirectory p = .error e)
    (same : v.isDirectory p = u.isDirectory p) :
    Lockstep own u v (u.ensureDirectory p) (v.ensureDirectory p) := by
  unfold ensureDirectory
  rw [refused, refused', same]
  cases e with
  | refused errno t =>
      cases u.isDirectory p with
      | error e => exact .inl ⟨e, rfl, rfl⟩
      | ok isDirectory =>
          cases isDirectory with
          | false => exact .inl ⟨_, rfl, rfl⟩
          | true => exact .inr ⟨u, v, rfl, rfl, Together.refl pair⟩
  | _ => exact .inl ⟨_, rfl, rfl⟩

/-- A directory that may be new in the second tree is made in the first, or refused in both. -/
theorem ensureDirectory_lockstep (pair : Comparable u v) (located : v.locate p = u.locate p)
    (place : v.node? (u.placeOf p) = u.node? (u.placeOf p) ∨ IsNew u v (u.placeOf p)) :
    Lockstep own u v (u.ensureDirectory p) (v.ensureDirectory p) := by
  have resolved := resolve_of_located located
  cases found : u.resolve p with
  | error e =>
      refine ensureDirectory_of_refused pair (makeDirectory_of_taken found)
        (makeDirectory_of_taken (resolved.trans found)) ?_
      unfold isDirectory
      rw [lookup_of_located located fun l reached => absurd (found.symm.trans reached) (by simp)]
  | ok l =>
      have found' := resolved.trans found
      obtain rfl := resolve_eq_placeOf found
      rcases place with same | ⟨nothing, directory⟩
      · cases there : u.node? (u.placeOf p) with
        | some node =>
            refine ensureDirectory_of_refused pair (makeDirectory_of_some found there)
              (makeDirectory_of_some found' (same.trans there)) ?_
            unfold isDirectory
            rw [lookup_of_located located fun l reached => resolve_eq_placeOf reached ▸ same]
        | none =>
            unfold ensureDirectory
            rw [makeDirectory_of_none pair.first found there,
              makeDirectory_of_none pair.second found' (same.trans there)]
            exact .inr ⟨_, _, rfl, rfl, Together.made pair there (same.trans there)
              (directory_above pair.first found) (directory_above pair.second found')⟩
      · -- The first tree makes what the second one has.
        have isDirectory : v.isDirectory p = .ok true := by
          unfold Tree.isDirectory
          rw [lookup_of_resolve found', directory]
          rfl
        unfold ensureDirectory
        rw [makeDirectory_of_none pair.first found nothing, makeDirectory_of_some found' directory]
        simp only [isDirectory]
        exact .inr ⟨_, _, rfl, rfl,
          Together.caughtUp pair nothing directory (directory_above pair.first found)⟩

/-- Two changes that went alike. -/
def ChangedAlike (own : Location → Prop) (u v : Tree) (change change' : Change) : Prop :=
  change'.2 = change.2 ∧ Together own u v change.1 change'.1

theorem ChangedAlike.trans {change change' : Change} (h : Together own u v u' v')
    (k : ChangedAlike own u' v' change change') : ChangedAlike own u v change change' :=
  ⟨k.1, h.trans k.2⟩

/-- The last directory, behind those above it. -/
theorem thenDirectory_lockstep (pair : Comparable u v)
    (h : Lockstep own u v (u.ensureDirectory p) (v.ensureDirectory p)) :
    ChangedAlike own u v (Change.thenDirectory (u, none) p) (Change.thenDirectory (v, none) p) := by
  unfold Change.thenDirectory
  rcases h with ⟨e, refused, refused'⟩ | ⟨u', v', made, made', together⟩
  · simp only [refused, refused']
    exact ⟨rfl, Together.refl pair⟩
  · simp only [made, made']
    exact ⟨rfl, together⟩

theorem parent_ne (some : p.parts ≠ []) : p.parent ≠ p := by
  intro same
  have size := congrArg (fun path : Path => path.parts.length) same
  simp only [Path.parent, List.length_dropLast] at size
  have := List.length_pos_iff.mpr some
  omega

theorem parts_of_notFound (missing : tree.locate p = .ok (.error .notFound)) : p.parts ≠ [] := by
  intro none
  rw [locate_of_named (isNamed_of_locate missing (by simp)), none] at missing
  exact absurd missing (by simp [follow])

/-- The directories above come first where a path is not found for want of them. -/
theorem makeDirectories_of_notFound (missing : tree.locate p = .ok (.error .notFound)) :
    tree.makeDirectories p = (tree.makeDirectories p.parent).thenDirectory p := by
  have some := parts_of_notFound missing
  have refused : tree.makeDirectory p = .error (.refused .notFound p.toText) := by
    apply makeDirectory_of_taken
    unfold resolve
    rw [missing]
    rfl
  obtain ⟨count, size⟩ := Nat.exists_eq_succ_of_ne_zero (List.length_pos_iff.mpr some).ne'
  have above : p.parent.parts.length = count := by
    rw [Path.parent, List.length_dropLast, size]
    rfl
  unfold makeDirectories
  rw [size, above, makeParents, refused]
  simp only
  rw [if_neg (parent_ne some)]

/-- In a sound tree a directory is not refused for want of those above it unless the path is not
found. -/
theorem makeDirectory_ne_notFound (sound : tree.IsSound)
    (other : tree.locate p ≠ .ok (.error .notFound)) (t : Text) :
    tree.makeDirectory p ≠ .error (.refused .notFound t) := by
  cases found : tree.resolve p with
  | ok l =>
      cases there : tree.node? l with
      | none =>
          rw [makeDirectory_of_none sound found there]
          simp
      | some node =>
          rw [makeDirectory_of_some found there]
          simp
  | error e =>
      rw [makeDirectory_of_taken found]
      rintro same
      rw [Except.error.inj same] at found
      unfold resolve at found
      cases located : tree.locate p with
      | error e =>
          rw [located] at found
          obtain rfl := Except.error.inj found
          unfold locate pathBytes at located
          revert located
          split
          · simp [bind, Except.bind]
          · simp only
            split
            · simp [bind, Except.bind]
            · simp only [bind, Except.bind]
              split <;> simp [pure, Except.pure]
      | ok reached =>
          rw [located] at found
          cases reached with
          | ok l => exact absurd found (by simp [bind, Except.bind, pure, Except.pure])
          | error e =>
              obtain ⟨rfl, _⟩ := Error.refused.inj (Except.error.inj found)
              exact other located

theorem makeDirectories_of_found (sound : tree.IsSound)
    (other : tree.locate p ≠ .ok (.error .notFound)) :
    tree.makeDirectories p = Change.thenDirectory (tree, none) p := by
  unfold makeDirectories
  cases p.parts.length with
  | zero => rfl
  | succ count =>
      unfold makeParents
      split
      · rename_i t refused
        exact absurd refused (makeDirectory_ne_notFound sound other t)
      · rfl

/-- A path that leads somewhere has a parent that leads to a directory. -/
theorem parent_of_resolve (found : tree.resolve p = .ok l) (some : p.parts ≠ []) :
    ∃ m, tree.resolve p.parent = .ok m ∧ tree.node? m = .some .directory := by
  obtain ⟨named, followed⟩ := locate_eq_ok.mp (resolve_eq_ok.mp found)
  rw [Path.parts_eq_concat some] at followed
  obtain ⟨m, first, last⟩ := follow_append_ok.mp followed
  exact ⟨m, resolve_eq_ok.mpr (locate_eq_ok.mpr ⟨IsNamed.parent named, first⟩),
    (follow_cons_ok.mp last).1⟩

/-- A path whose parent leads to a directory is found, unless its name is too long. -/
theorem locate_ne_notFound (found : tree.resolve p.parent = .ok l)
    (directory : tree.node? l = some .directory) : tree.locate p ≠ .ok (.error .notFound) := by
  intro missing
  have some := parts_of_notFound missing
  have first : tree.follow (tree.startOf p) p.parent.parts = .ok l :=
    (locate_eq_ok.mp (resolve_eq_ok.mp found)).2
  rw [locate_of_named (isNamed_of_locate missing (by simp)), Except.ok.injEq,
    Path.parts_eq_concat some, follow_append_of_ok first, follow, directory] at missing
  simp only at missing
  split at missing
  · exact absurd missing (by simp)
  · split at missing <;> exact absurd missing (by simp [follow])

/-- When the directories above are made alike, so is the last one. -/
theorem ChangedAlike.thenDirectory (pair : Comparable u v)
    (alike : AlikeAlong u v (u.startOf p) p.parts)
    (above : ChangedAlike own u v (u.makeDirectories p.parent) (v.makeDirectories p.parent)) :
    ChangedAlike own u v ((u.makeDirectories p.parent).thenDirectory p)
      ((v.makeDirectories p.parent).thenDirectory p) := by
  have opened : (u.makeDirectories p.parent).2 = none → _ := makeDirectories_gives
  rcases first : u.makeDirectories p.parent with ⟨u', refusal⟩
  rcases second : v.makeDirectories p.parent with ⟨v', refusal'⟩
  rw [first] at opened above
  rw [second] at above
  obtain ⟨told, together⟩ := above
  obtain rfl : refusal' = refusal := told
  cases refusal' with
  | some e => exact ⟨rfl, together⟩
  | none =>
      obtain ⟨l, found, directory⟩ := opened rfl
      have pair' : Comparable u' v' := together.comparable pair
      have alike' : AlikeAlong u' v' (u'.startOf p) p.parts :=
        together.startOf p ▸ together.along alike
      have located : v'.locate p = u'.locate p :=
        (locate_alike pair' alike').resolve_right fun missed =>
          locate_ne_notFound found directory missed.1
      have place := (alike' p.parts [] (List.append_nil _).symm).imp_right And.left
      exact .trans together
        (thenDirectory_lockstep pair' (ensureDirectory_lockstep pair' located place))

/-- Directories are made alike where the second tree has at most new directories on the way. -/
theorem makeDirectories_lockstep (pair : Comparable u v)
    (alike : AlikeAlong u v (u.startOf p) p.parts) :
    ChangedAlike own u v (u.makeDirectories p) (v.makeDirectories p) := by
  -- By induction on the number of names: a path that is not found needs those above it first.
  induction size : p.parts.length using Nat.strong_induction_on generalizing p with
  | _ count ih =>
  have recursive : p.parts ≠ [] →
      ChangedAlike own u v (u.makeDirectories p.parent) (v.makeDirectories p.parent) := by
    intro some
    obtain ⟨last, parts⟩ := List.dropLast_prefix p.parts
    rw [← parts] at alike
    refine ih _ ?_ alike.left rfl
    have := List.length_pos_iff.mpr some
    rw [Path.parent, List.length_dropLast, size]
    omega
  rcases locate_alike pair alike with located | ⟨missing, _, reached⟩
  · by_cases missing : u.locate p = .ok (.error .notFound)
    · rw [makeDirectories_of_notFound missing, makeDirectories_of_notFound (located.trans missing)]
      exact .thenDirectory pair alike (recursive (parts_of_notFound missing))
    · rw [makeDirectories_of_found pair.first missing,
        makeDirectories_of_found pair.second (located ▸ missing)]
      have place := (alike p.parts [] (List.append_nil _).symm).imp_right And.left
      exact thenDirectory_lockstep pair (ensureDirectory_lockstep pair located place)
  · -- In the second tree all directories above are there already, so making them changes nothing.
    have some := parts_of_notFound missing
    obtain ⟨m, found, directory⟩ := parent_of_resolve (resolve_eq_ok.mpr reached) some
    have last : v.makeDirectories p = (v.makeDirectories p.parent).thenDirectory p := by
      rw [makeDirectories_of_directory found directory,
        makeDirectories_of_found pair.second (by simp [reached])]
    rw [makeDirectories_of_notFound missing, last]
    exact .thenDirectory pair alike (recursive some)

end Files.Tree

end ModulePackaging
