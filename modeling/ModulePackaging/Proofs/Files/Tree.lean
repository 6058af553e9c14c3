import Mathlib.Data.List.Basic
import Mathlib.Data.List.Induction
import ModulePackaging.Files.Tree
import ModulePackaging.Proofs.Outcomes

/-!
# What operations do to a tree of files

Each operation that succeeds changes the tree at one location, and the conditions under which it
does so are those of a file system. A tree is sound when all that is there is in a directory, and
operations keep it sound.
-/

namespace ModulePackaging.Files.Tree

variable {tree tree' : Tree} {l k : Location} {p q : Path}

/-! ## Looking at a location -/

@[simp] theorem node?_nil (tree : Tree) : tree.node? [] = some .directory := rfl

/-- The root is a directory. -/
theorem ne_nil_of_not_directory (other : tree.node? l ≠ some .directory) : l ≠ [] := by
  rintro rfl
  exact other rfl

theorem ne_nil_of_none (nothing : tree.node? l = none) : l ≠ [] := by
  rintro rfl
  exact absurd nothing (by simp)

theorem node?_of_ne_nil (some : l ≠ []) :
    tree.node? l = (tree.nodes.find? fun entry => entry.1 == l).map Prod.snd := by
  rw [node?, if_neg (by simpa using some)]

theorem node?_set_self (some : l ≠ []) (node : Node) : (tree.set l node).node? l = .some node := by
  rw [node?_of_ne_nil some, set, List.find?_append]
  have none : (tree.nodes.filter fun entry => entry.1 != l).find? (fun entry => entry.1 == l) =
      .none := by
    rw [List.find?_eq_none]
    intro entry member
    simpa using (List.mem_filter.mp member).2
  rw [none]
  simp

theorem node?_set_of_ne (other : k ≠ l) (node : Node) :
    (tree.set l node).node? k = tree.node? k := by
  by_cases some : k = []
  · rw [some]
    rfl
  · rw [node?_of_ne_nil some, node?_of_ne_nil some, set, List.find?_append, List.find?_filter]
    have last : [(l, node)].find? (fun entry => entry.1 == k) = none := by
      simp [Ne.symm other]
    have same : (fun entry : Location × Node =>
        decide ((entry.1 != l) = true ∧ (entry.1 == k) = true)) = fun entry => entry.1 == k := by
      funext entry
      by_cases here : entry.1 = k
      · simp [here, other]
      · simp [here]
    rw [last, same, Option.or_none]

theorem node?_erase_of_not_below (other : ¬ l <+: k) : (tree.erase l).node? k = tree.node? k := by
  by_cases some : k = []
  · rw [some]
    rfl
  · rw [node?_of_ne_nil some, node?_of_ne_nil some, erase, List.find?_filter]
    have same : (fun entry : Location × Node =>
        decide ((!l.isPrefixOf entry.1) = true ∧ (entry.1 == k) = true)) =
        fun entry => entry.1 == k := by
      funext entry
      by_cases here : entry.1 = k
      · have out : l.isPrefixOf k = false := by
          rw [← Bool.not_eq_true, List.isPrefixOf_iff_prefix]
          exact other
        simp [here, out]
      · simp [here]
    rw [same]

theorem node?_erase_of_below (below : l <+: k) (some : k ≠ []) : (tree.erase l).node? k = none := by
  rw [node?_of_ne_nil some, erase]
  have none : (tree.nodes.filter fun entry => !l.isPrefixOf entry.1).find?
      (fun entry => entry.1 == k) = .none := by
    rw [List.find?_eq_none]
    intro entry member here
    obtain rfl : entry.1 = k := by simpa using here
    have out := (List.mem_filter.mp member).2
    rw [List.isPrefixOf_iff_prefix.mpr below] at out
    exact absurd out (by simp)
  rw [none]
  rfl

/-- Taking away what is at a location takes away what is there and below, and leaves all else. -/
theorem node?_erase (tree : Tree) (some : l ≠ []) (k : Location) :
    (tree.erase l).node? k = if l <+: k then none else tree.node? k := by
  split
  · rename_i below
    apply node?_erase_of_below below
    rintro rfl
    exact some (List.prefix_nil.mp below)
  · rename_i other
    exact node?_erase_of_not_below other

/-! ## Following a path -/

/-- The name that leads one directory back. -/
def back : Text := [0x2E, 0x2E]

/-- Where names lead from a location if directories are there. -/
def walk (location : Location) : List Text → Location
  | [] => location
  | name :: rest => walk (if name = back then location.dropLast else location ++ [name]) rest

/-- The location that a path starts from. -/
def startOf (tree : Tree) (p : Path) : Location := if p.isAbsolute then [] else tree.home

/-- The place that a path names, whether or not it can be reached. -/
def placeOf (tree : Tree) (p : Path) : Location := walk (tree.startOf p) p.parts

theorem walk_append (l : Location) (names others : List Text) :
    walk l (names ++ others) = walk (walk l names) others := by
  induction names generalizing l with
  | nil => rfl
  | cons name rest ih => exact ih _

/-- Names none of which leads back are put behind the location. -/
theorem walk_of_forward {names : List Text} (forward : back ∉ names) (l : Location) :
    walk l names = l ++ names := by
  induction names generalizing l with
  | nil => exact (List.append_nil l).symm
  | cons name rest ih =>
      rw [List.mem_cons, not_or] at forward
      rw [walk, if_neg (Ne.symm forward.1), ih forward.2, List.append_assoc]
      rfl

/-- A name can be followed from a directory if it is not too long. -/
theorem follow_cons_ok {name : Text} {rest : List Text} :
    tree.follow l (name :: rest) = .ok k ↔ tree.node? l = some .directory ∧
      (name.flatMap Utf8.encodePoint).length ≤ nameLimit ∧
        tree.follow (if name = back then l.dropLast else l ++ [name]) rest = .ok k := by
  rw [follow]
  cases tree.node? l with
  | none => simp
  | some node =>
      cases node with
      | file content mode => simp
      | directory =>
          simp only [true_and]
          by_cases long : (name.flatMap Utf8.encodePoint).length > nameLimit
          · rw [if_pos long]
            constructor
            · intro h
              exact absurd h (by simp)
            · rintro ⟨short, _⟩
              exact absurd short (by omega)
          · rw [if_neg long]
            have short : (name.flatMap Utf8.encodePoint).length ≤ nameLimit := by omega
            by_cases isBack : name = back
            · rw [if_pos isBack, if_pos (show name = ([0x2E, 0x2E] : Text) from isBack)]
              simp only [short, true_and]
            · rw [if_neg isBack, if_neg (show ¬ name = ([0x2E, 0x2E] : Text) from isBack)]
              simp only [short, true_and]

/-- Names that can be followed lead to where they walk. -/
theorem follow_eq_walk {names : List Text} (h : tree.follow l names = .ok k) :
    k = walk l names := by
  induction names generalizing l with
  | nil => exact (Except.ok.inj h).symm
  | cons name rest ih => exact ih (follow_cons_ok.mp h).2.2

theorem follow_append_ok {names others : List Text} :
    tree.follow l (names ++ others) = .ok k ↔
      ∃ m, tree.follow l names = .ok m ∧ tree.follow m others = .ok k := by
  induction names generalizing l with
  | nil =>
      constructor
      · intro h
        exact ⟨l, rfl, h⟩
      · rintro ⟨m, same, h⟩
        rw [Except.ok.inj same]
        exact h
  | cons name rest ih =>
      rw [List.cons_append, follow_cons_ok, ih]
      constructor
      · rintro ⟨directory, short, m, first, second⟩
        exact ⟨m, follow_cons_ok.mpr ⟨directory, short, first⟩, second⟩
      · rintro ⟨m, first, second⟩
        obtain ⟨directory, short, first⟩ := follow_cons_ok.mp first
        exact ⟨directory, short, m, first, second⟩

/-- Names can be followed in every tree that has the directories. -/
theorem follow_of_directories {names : List Text}
    (directories : ∀ l, tree.node? l = some .directory → tree'.node? l = some .directory)
    (h : tree.follow l names = .ok k) : tree'.follow l names = .ok k := by
  induction names generalizing l with
  | nil => exact h
  | cons name rest ih =>
      obtain ⟨directory, short, onward⟩ := follow_cons_ok.mp h
      exact follow_cons_ok.mpr ⟨directories l directory, short, ih onward⟩

theorem resolve_eq_ok : tree.resolve p = .ok l ↔ tree.locate p = .ok (.ok l) := by
  unfold resolve
  cases tree.locate p with
  | error e => simp [bind, Except.bind]
  | ok found =>
      cases found with
      | error errno => simp [bind, Except.bind, throw, throwThe, MonadExceptOf.throw]
      | ok m => simp [bind, Except.bind, pure, Except.pure]

/-- A path that can name a file: its text can be encoded, has no zero and is not too long. -/
def IsNamed (p : Path) : Prop := ∃ bytes, pathBytes p = .ok bytes ∧ bytes.length ≤ pathLimit

/-- A path that can name a file leads to where its parts can be followed. -/
theorem locate_of_named (named : IsNamed p) (tree : Tree) :
    tree.locate p = .ok (tree.follow (tree.startOf p) p.parts) := by
  obtain ⟨bytes, form, fits⟩ := named
  unfold locate
  rw [form]
  simp only [bind, Except.bind, if_neg (show ¬ bytes.length > pathLimit by omega)]
  rfl

/-- A path that cannot name a file is refused for its text, or for its length, in every tree. -/
theorem locate_of_unnamed (unnamed : ¬ IsNamed p) :
    (∃ e, ∀ tree : Tree, tree.locate p = .error e) ∨
      ∀ tree : Tree, tree.locate p = .ok (.error .nameTooLong) := by
  unfold locate
  cases form : pathBytes p with
  | error e => exact .inl ⟨e, fun _ => rfl⟩
  | ok bytes =>
      have long : bytes.length > pathLimit := by
        by_contra short
        exact unnamed ⟨bytes, form, by omega⟩
      refine .inr fun tree => ?_
      simp only [bind, Except.bind, if_pos long]
      rfl

theorem locate_same_of_unnamed (unnamed : ¬ IsNamed p) (t u : Tree) : t.locate p = u.locate p := by
  rcases locate_of_unnamed unnamed with ⟨e, refused⟩ | long
  · rw [refused t, refused u]
  · rw [long t, long u]

/-- A path that is found, or not for another reason than a length, can name a file. -/
theorem isNamed_of_locate {reached : Except Errno Location} (found : tree.locate p = .ok reached)
    (other : reached ≠ .error .nameTooLong) : IsNamed p := by
  by_contra unnamed
  rcases locate_of_unnamed unnamed with ⟨e, refused⟩ | long
  · rw [refused tree] at found
    exact absurd found (by simp)
  · rw [long tree] at found
    exact other (Except.ok.inj found).symm

/-- A path leads to a location if it can name a file and its parts can be followed. -/
theorem locate_eq_ok : tree.locate p = .ok (.ok l) ↔
    IsNamed p ∧ tree.follow (tree.startOf p) p.parts = .ok l := by
  constructor
  · intro found
    have named := isNamed_of_locate found (by simp)
    rw [locate_of_named named] at found
    exact ⟨named, Except.ok.inj found⟩
  · rintro ⟨named, followed⟩
    rw [locate_of_named named, followed]

theorem resolve_eq_placeOf (h : tree.resolve p = .ok l) : l = tree.placeOf p :=
  follow_eq_walk (locate_eq_ok.mp (resolve_eq_ok.mp h)).2

/-- A path leads to the same location in every tree that has the directories. -/
theorem resolve_of_directories (home : tree'.home = tree.home)
    (directories : ∀ l, tree.node? l = some .directory → tree'.node? l = some .directory)
    (h : tree.resolve p = .ok l) : tree'.resolve p = .ok l := by
  rw [resolve_eq_ok, locate_eq_ok] at h ⊢
  have start : tree'.startOf p = tree.startOf p := by rw [startOf, startOf, home]
  rw [start]
  exact ⟨h.1, follow_of_directories directories h.2⟩

/-! ## Reading and changing files -/

theorem read_eq_ok {content : Bytes} : tree.read p = .ok content ↔
    ∃ l mode, tree.resolve p = .ok l ∧ tree.node? l = some (.file content mode) := by
  unfold read
  rw [bind_eq_ok]
  constructor
  · rintro ⟨l, found, h⟩
    split at h
    · rename_i content' mode there
      cases h
      exact ⟨l, mode, found, there⟩
    · exact absurd h throw_ne_ok
    · exact absurd h throw_ne_ok
  · rintro ⟨l, mode, found, there⟩
    refine ⟨l, found, ?_⟩
    rw [there]
    rfl

/-- A file is written where there is one, or where there is nothing in a directory. -/
theorem write_eq_ok {content : Bytes} {mode : Nat} (h : tree.write p content mode = .ok tree') :
    ∃ l kept, tree.resolve p = .ok l ∧ tree' = tree.set l (.file content kept) ∧ l ≠ [] ∧
      tree.node? l ≠ some .directory ∧
        (tree.node? l = none → tree.node? l.dropLast = some .directory) := by
  unfold write at h
  obtain ⟨l, found, h⟩ := bind_eq_ok.mp h
  have notTop : tree.node? l ≠ some .directory → l ≠ [] := by
    rintro there rfl
    exact there rfl
  split at h
  · rename_i kept there
    cases h
    have other : tree.node? l ≠ some .directory := by simp [there]
    exact ⟨l, kept, found, rfl, notTop other, other, by simp [there]⟩
  · exact absurd h throw_ne_ok
  · rename_i nothing
    split at h
    · rename_i above
      cases h
      have other : tree.node? l ≠ some .directory := by simp [nothing]
      exact ⟨l, mode, found, rfl, notTop other, other, fun _ => above⟩
    · exact absurd h throw_ne_ok
    · exact absurd h throw_ne_ok

/-- Where no directory is, but one is above, a file can be written. -/
theorem exists_write (content : Bytes) (mode : Nat) (found : tree.resolve p = .ok l)
    (other : tree.node? l ≠ some .directory) (above : tree.node? l.dropLast = some .directory) :
    ∃ kept, tree.write p content mode = .ok (tree.set l (.file content kept)) := by
  unfold write
  rw [found]
  cases there : tree.node? l with
  | none =>
      refine ⟨mode, ?_⟩
      simp only [bind, Except.bind, there, above]
      rfl
  | some node =>
      cases node with
      | file old kept =>
          refine ⟨kept, ?_⟩
          simp only [bind, Except.bind, there]
          rfl
      | directory => exact absurd there other

/-- A directory is made where there is nothing in a directory. -/
theorem makeDirectory_eq_ok (h : tree.makeDirectory p = .ok tree') :
    ∃ l, tree.resolve p = .ok l ∧ tree' = tree.set l .directory ∧ tree.node? l = none ∧
      tree.node? l.dropLast = some .directory := by
  unfold makeDirectory at h
  obtain ⟨l, found, h⟩ := bind_eq_ok.mp h
  split at h
  · exact absurd h throw_ne_ok
  · rename_i nothing
    split at h
    · rename_i above
      cases h
      exact ⟨l, found, rfl, nothing, above⟩
    · exact absurd h throw_ne_ok
    · exact absurd h throw_ne_ok

theorem resolveOf_eq_ok {wanted : Path} :
    tree.resolveOf p q wanted = .ok l ↔ tree.resolve wanted = .ok l := by
  rw [resolve_eq_ok]
  unfold resolveOf
  cases tree.locate wanted with
  | error e => simp [bind, Except.bind]
  | ok found =>
      cases found with
      | error errno => simp [bind, Except.bind, throw, throwThe, MonadExceptOf.throw]
      | ok m => simp [bind, Except.bind, pure, Except.pure]

theorem sourceAndTarget_eq_ok {source target : Location} {content : Bytes} {mode : Nat} :
    tree.sourceAndTarget p q = .ok (source, content, mode, target) ↔
      tree.resolve p = .ok source ∧ tree.resolve q = .ok target ∧
        tree.node? source = some (.file content mode) ∧
          tree.node? target.dropLast = some .directory := by
  unfold sourceAndTarget
  rw [bind_eq_ok]
  constructor
  · rintro ⟨s, first, h⟩
    obtain ⟨t, second, h⟩ := bind_eq_ok.mp h
    split at h
    · rename_i content' mode' there
      split at h
      · rename_i above
        cases h
        exact ⟨resolveOf_eq_ok.mp first, resolveOf_eq_ok.mp second, there, above⟩
      · exact absurd h throw_ne_ok
      · exact absurd h throw_ne_ok
    · exact absurd h throw_ne_ok
    · exact absurd h throw_ne_ok
  · rintro ⟨first, second, there, above⟩
    refine ⟨source, resolveOf_eq_ok.mpr first, bind_eq_ok.mpr
      ⟨target, resolveOf_eq_ok.mpr second, ?_⟩⟩
    rw [there, above]
    rfl

/-- A file is moved to where there is no directory. -/
theorem replace_eq_ok : tree.replace p q = .ok tree' ↔
    ∃ source content mode target,
      tree.sourceAndTarget p q = .ok (source, content, mode, target) ∧
        tree.node? target ≠ some .directory ∧
          tree' = (tree.erase source).set target (.file content mode) := by
  unfold replace
  rw [bind_eq_ok]
  constructor
  · rintro ⟨⟨source, content, mode, target⟩, found, h⟩
    simp only at h
    split at h
    · exact absurd h throw_ne_ok
    · rename_i other
      cases h
      exact ⟨source, content, mode, target, found, fun there => other there, rfl⟩
  · rintro ⟨source, content, mode, target, found, other, rfl⟩
    refine ⟨_, found, ?_⟩
    simp only
    rfl

/-- Nothing is moved where the two paths are refused. -/
theorem replace_of_refused {e : Error} (refused : tree.sourceAndTarget p q = .error e) :
    tree.replace p q = .error e := by
  unfold replace
  rw [refused]
  rfl

/-- Nothing is moved over a directory. -/
theorem replace_of_directory {source target : Location} {content : Bytes} {mode : Nat}
    (pair : tree.sourceAndTarget p q = .ok (source, content, mode, target))
    (directory : tree.node? target = some .directory) :
    tree.replace p q = .error (pairRefusal p q .isDirectory) := by
  unfold replace
  rw [pair]
  simp only [bind, Except.bind, directory]
  rfl

/-- A file gets a second place where there is nothing. -/
theorem link_eq_ok (h : tree.link p q = .ok tree') :
    ∃ source content mode target,
      tree.sourceAndTarget p q = .ok (source, content, mode, target) ∧
        tree.node? target = none ∧ tree' = tree.set target (.file content mode) := by
  unfold link at h
  obtain ⟨⟨source, content, mode, target⟩, found, h⟩ := bind_eq_ok.mp h
  simp only at h
  split at h
  · exact absurd h throw_ne_ok
  · rename_i nothing
    cases h
    exact ⟨source, content, mode, target, found, nothing, rfl⟩

/-- A file can be linked to where nothing is. -/
theorem link_of_none {source target : Location} {content : Bytes} {mode : Nat}
    (pair : tree.sourceAndTarget p q = .ok (source, content, mode, target))
    (nothing : tree.node? target = none) :
    tree.link p q = .ok (tree.set target (.file content mode)) := by
  unfold link
  rw [pair]
  simp only [bind, Except.bind, nothing]
  rfl

/-- What is there is taken away with all below it. -/
theorem remove_eq_ok : tree.remove p = .ok tree' ↔
    ∃ l, tree.resolve p = .ok l ∧ tree.node? l ≠ none ∧ tree' = tree.erase l := by
  unfold remove
  rw [bind_eq_ok]
  constructor
  · rintro ⟨l, found, h⟩
    split at h
    · rename_i node there
      cases h
      exact ⟨l, found, by simp [there], rfl⟩
    · exact absurd h throw_ne_ok
  · rintro ⟨l, found, there, rfl⟩
    refine ⟨l, found, ?_⟩
    split
    · rfl
    · rename_i nothing
      exact absurd nothing there

/-! ## Sound trees -/

/-- A tree as a file system has it: the directory that paths start from is there, and all that is
there is in a directory. -/
structure IsSound (tree : Tree) : Prop where
  home : tree.node? tree.home = some .directory
  above : ∀ l, tree.node? l ≠ none → tree.node? l.dropLast = some .directory

/-- A tree whose nodes are all in directories is sound. -/
theorem isSound_of_nodes (home : tree.node? tree.home = some .directory)
    (above : ∀ entry ∈ tree.nodes, tree.node? entry.1.dropLast = some .directory) :
    tree.IsSound where
  home := home
  above l there := by
    by_cases root : l = []
    · rw [root]
      rfl
    · obtain ⟨node, here⟩ := Option.ne_none_iff_exists'.mp there
      rw [node?, if_neg (by simpa using root), Option.map_eq_some_iff] at here
      obtain ⟨entry, found, _⟩ := here
      obtain rfl : entry.1 = l := by simpa using List.find?_some found
      exact above entry (List.mem_of_find?_eq_some found)

/-- Above what is there are directories. -/
theorem IsSound.directory_of_prefix (sound : tree.IsSound) (there : tree.node? k ≠ none)
    (below : l <+: k) (other : l ≠ k) : tree.node? l = some .directory := by
  obtain ⟨names, rfl⟩ := below
  induction names using List.reverseRecOn with
  | nil => exact absurd (List.append_nil l).symm other
  | append_singleton names name ih =>
      have above := sound.above _ there
      rw [← List.append_assoc, List.dropLast_concat] at above
      by_cases none : names = []
      · rwa [none, List.append_nil] at above
      · exact ih (by simp [above]) (by simpa using none)

/-- Below what is missing or a file nothing is there. -/
theorem IsSound.none_of_prefix (sound : tree.IsSound) (nothing : tree.node? l ≠ some .directory)
    (below : l <+: k) (other : l ≠ k) : tree.node? k = none := by
  by_contra there
  exact nothing (sound.directory_of_prefix there below other)

/-- Where nothing is, nothing is below. -/
theorem IsSound.none_below (sound : tree.IsSound) (nothing : tree.node? l = none) (below : l <+: k) :
    tree.node? k = none := by
  by_cases same : l = k
  · rw [← same, nothing]
  · exact sound.none_of_prefix (by simp [nothing]) below same

/-- The home is below nothing but directories. -/
theorem IsSound.not_prefix_home (sound : tree.IsSound) (other : tree.node? l ≠ some .directory) :
    ¬ l <+: tree.home := by
  intro below
  by_cases same : l = tree.home
  · exact other (same ▸ sound.home)
  · have nothing := sound.none_of_prefix other below same
    rw [sound.home] at nothing
    exact absurd nothing (by simp)

/-- Taking away what is no directory takes away nothing else. -/
theorem IsSound.node?_erase (sound : tree.IsSound) (other : tree.node? l ≠ some .directory)
    (k : Location) : (tree.erase l).node? k = if k = l then none else tree.node? k := by
  rw [Tree.node?_erase tree (ne_nil_of_not_directory other)]
  by_cases same : k = l
  · rw [if_pos same, if_pos (same ▸ List.prefix_refl _)]
  · rw [if_neg same]
    split
    · rename_i below
      exact (sound.none_of_prefix other below (Ne.symm same)).symm
    · rfl

/-- Where a file is moved to another place, it is there, and all else is as before. -/
theorem IsSound.node?_moved (sound : tree.IsSound) {source target : Location} {content : Bytes}
    {mode : Nat} (file : tree.node? source = some (.file content mode))
    (other : tree.node? target ≠ some .directory) (k : Location) :
    ((tree.erase source).set target (.file content mode)).node? k =
      if k = target then some (.file content mode)
      else if k = source then none else tree.node? k := by
  by_cases here : k = target
  · rw [if_pos here, here, node?_set_self (ne_nil_of_not_directory other)]
  · rw [if_neg here, node?_set_of_ne here, sound.node?_erase (by simp [file])]

theorem IsSound.set (sound : tree.IsSound) {node : Node} (some : l ≠ [])
    (above : tree.node? l.dropLast = .some .directory)
    (kept : tree.node? l = .some .directory → node = .directory) : (tree.set l node).IsSound := by
  have shorter : l.dropLast ≠ l := by
    intro same
    have := congrArg List.length same
    rw [List.length_dropLast] at this
    have := List.length_pos_iff.mpr some
    omega
  have directories : ∀ m, tree.node? m = .some .directory →
      (tree.set l node).node? m = .some .directory := by
    intro m there
    by_cases here : m = l
    · rw [here] at there ⊢
      rw [node?_set_self some, kept there]
    · rw [node?_set_of_ne here, there]
  constructor
  · exact directories tree.home sound.home
  · intro m there
    by_cases here : m = l
    · rw [here]
      exact directories _ above
    · rw [node?_set_of_ne here] at there
      exact directories _ (sound.above m there)

theorem IsSound.erase (sound : tree.IsSound) (spared : ¬ l <+: tree.home) :
    (tree.erase l).IsSound := by
  constructor
  · show (tree.erase l).node? tree.home = some .directory
    rw [node?_erase_of_not_below spared]
    exact sound.home
  · intro m there
    by_cases top : m = []
    · rw [top]
      rfl
    · have other : ¬ l <+: m := by
        intro below
        exact there (node?_erase_of_below below top)
      rw [node?_erase_of_not_below other] at there
      rw [node?_erase_of_not_below fun below => other (below.trans (List.dropLast_prefix m))]
      exact sound.above m there

end ModulePackaging.Files.Tree
