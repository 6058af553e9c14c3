import ModulePackaging.Proofs.Files.Directories

/-!
# Trees that a path finds alike

Two trees with the same home that have the same on the way of a path, except that the second may
have directories there which the first does not. Such a directory is passed on the way down, so what
the path leads to is the same in both: a path that misses the directory in the first tree still
finds nothing in the second.
-/

namespace ModulePackaging.Files.Tree

variable {tree u v : Tree} {l m : Location} {names rest : List Text} {p : Path}

/-- Two trees in which paths start from the same places. -/
structure Comparable (u v : Tree) : Prop where
  home : v.home = u.home
  first : u.IsSound
  second : v.IsSound

theorem Comparable.startOf (pair : Comparable u v) (p : Path) : v.startOf p = u.startOf p := by
  rw [Tree.startOf, Tree.startOf, pair.home]

theorem Comparable.placeOf (pair : Comparable u v) (p : Path) : v.placeOf p = u.placeOf p := by
  rw [Tree.placeOf, Tree.placeOf, pair.startOf]

/-- A directory that only the second of two trees has. -/
def IsNew (u v : Tree) (l : Location) : Prop := u.node? l = none ∧ v.node? l = some .directory

/-- Names that lead down, none of which is too long. -/
def LeadDown (names : List Text) : Prop :=
  back ∉ names ∧ ∀ name ∈ names, (name.flatMap Utf8.encodePoint).length ≤ nameLimit

theorem LeadDown.left {others : List Text} (down : LeadDown (names ++ others)) : LeadDown names :=
  ⟨fun inside => down.1 (List.mem_append_left _ inside),
    fun other inside => down.2 other (List.mem_append_left _ inside)⟩

/-- Along names from a location, two trees have the same; only the second may have new directories,
from which the names left lead down. -/
def AlikeAlong (u v : Tree) (l : Location) (names : List Text) : Prop :=
  ∀ done rest, names = done ++ rest →
    v.node? (walk l done) = u.node? (walk l done) ∨ IsNew u v (walk l done) ∧ LeadDown rest

/-- Two trees that a path finds alike, with the same where it leads to. -/
structure Alike (u v : Tree) (p : Path) : Prop where
  along : AlikeAlong u v (u.startOf p) p.parts
  place : v.node? (u.placeOf p) = u.node? (u.placeOf p)

instance : Decidable (IsNew u v l) := inferInstanceAs (Decidable (_ ∧ _))

instance : Decidable (LeadDown names) := inferInstanceAs (Decidable (_ ∧ _))

namespace AlikeAlong

theorem nil_iff : AlikeAlong u v l [] ↔
    v.node? l = u.node? l ∨ IsNew u v l ∧ LeadDown [] := by
  constructor
  · intro alike
    exact alike [] [] rfl
  · intro here done rest split
    obtain ⟨rfl, rfl⟩ := List.append_eq_nil_iff.mp split.symm
    exact here

theorem cons_iff {name : Text} : AlikeAlong u v l (name :: rest) ↔
    (v.node? l = u.node? l ∨ IsNew u v l ∧ LeadDown (name :: rest)) ∧
      AlikeAlong u v (if name = back then l.dropLast else l ++ [name]) rest := by
  constructor
  · intro alike
    refine ⟨alike [] (name :: rest) rfl, fun done others split => ?_⟩
    exact alike (name :: done) others (by rw [split, List.cons_append])
  · rintro ⟨here, onward⟩ done others split
    cases done with
    | nil =>
        rw [List.nil_append] at split
        exact split ▸ here
    | cons first done =>
        obtain ⟨rfl, tail⟩ := List.cons.inj split
        exact onward done others tail

theorem left {others : List Text} (alike : AlikeAlong u v l (names ++ others)) :
    AlikeAlong u v l names := by
  intro done rest split
  rcases alike done (rest ++ others) (by rw [split, List.append_assoc]) with same | ⟨new, down⟩
  · exact .inl same
  · exact .inr ⟨new, down.left⟩

instance decidable : (names : List Text) → (l : Location) → Decidable (AlikeAlong u v l names)
  | [], _ => decidable_of_iff _ nil_iff.symm
  | name :: rest, l =>
    have := decidable rest (if name = back then l.dropLast else l ++ [name])
    decidable_of_iff _ cons_iff.symm

end AlikeAlong

instance : Decidable (Alike u v p) :=
  decidable_of_iff
    (AlikeAlong u v (u.startOf p) p.parts ∧ v.node? (u.placeOf p) = u.node? (u.placeOf p))
    ⟨fun both => ⟨both.1, both.2⟩, fun alike => ⟨alike.along, alike.place⟩⟩

/-- Trees with the same on the way of a path are found alike by it. -/
theorem Alike.of_same (same : ∀ l, u.IsOnWay p l → v.node? l = u.node? l) : Alike u v p where
  along done _ split := .inl (same _ ⟨done, split ▸ List.prefix_append _ _, rfl⟩)
  place := same _ ⟨p.parts, List.prefix_refl _, rfl⟩

theorem Alike.parent (alike : Alike u v p) :
    AlikeAlong u v (u.startOf p.parent) p.parent.parts := by
  have whole := alike.along
  obtain ⟨last, parts⟩ := List.dropLast_prefix p.parts
  rw [← parts] at whole
  exact whole.left

/-! ## Following a path in both trees -/

theorem follow_of_directory {name : Text} (directory : tree.node? l = some .directory)
    (short : (name.flatMap Utf8.encodePoint).length ≤ nameLimit) :
    tree.follow l (name :: rest) =
      tree.follow (if name = back then l.dropLast else l ++ [name]) rest := by
  rw [follow, directory]
  simp only
  rw [if_neg (by omega)]
  split
  · rename_i isBack
    rw [if_pos (show name = back from isBack)]
  · rename_i forward
    rw [if_neg (show ¬ name = back from forward)]

theorem follow_of_none {name : Text} (nothing : tree.node? l = none) :
    tree.follow l (name :: rest) = .error .notFound := by
  rw [follow, nothing]

/-- What stands behind names that can be followed is followed from where they lead. -/
theorem follow_append_of_ok {others : List Text} (h : tree.follow l names = .ok m) :
    tree.follow l (names ++ others) = tree.follow m others := by
  induction names generalizing l with
  | nil => rw [Except.ok.inj h, List.nil_append]
  | cons name rest ih =>
      obtain ⟨directory, short, onward⟩ := follow_cons_ok.mp h
      rw [List.cons_append, follow_of_directory directory short]
      exact ih onward

/-- Names are followed alike, or the first tree misses what the second one has as a new place, in
which there may be a directory or nothing. -/
theorem follow_alike (pair : Comparable u v) (alike : AlikeAlong u v l names) :
    v.follow l names = u.follow l names ∨
      u.follow l names = .error .notFound ∧ u.node? (walk l names) = none ∧
        v.follow l names = .ok (walk l names) := by
  induction names generalizing l with
  | nil => exact .inl rfl
  | cons name rest ih =>
      obtain ⟨here, onward⟩ := AlikeAlong.cons_iff.mp alike
      rcases here with same | ⟨⟨nothing, directory⟩, down⟩
      · -- From what is the same in both, the names go on alike.
        cases there : u.node? l with
        | none =>
            left
            rw [follow_of_none there, follow_of_none (same.trans there)]
        | some node =>
            cases node with
            | file content mode =>
                left
                rw [follow, follow, same, there]
            | directory =>
                by_cases short : (name.flatMap Utf8.encodePoint).length ≤ nameLimit
                · rw [follow_of_directory there short, follow_of_directory (same.trans there) short]
                  exact ih onward
                · left
                  rw [follow, follow, same, there]
                  simp only
                  rw [if_pos (by omega), if_pos (by omega)]
      · -- Below a new directory the first tree has nothing.
        have forward : name ≠ back := fun same => down.1 (same ▸ List.mem_cons_self)
        have below : u.node? (l ++ [name]) = none :=
          pair.first.none_of_prefix (by simp [nothing]) (List.prefix_append _ _) (by simp)
        rw [if_neg forward] at onward
        rw [follow_of_none nothing,
          follow_of_directory directory (down.2 name List.mem_cons_self), walk, if_neg forward]
        rcases ih onward with same | ⟨_, missing, reached⟩
        · cases rest with
          | nil => exact .inr ⟨rfl, below, rfl⟩
          | cons next others =>
              left
              rw [same, follow_of_none below]
        · exact .inr ⟨rfl, missing, reached⟩

/-- Names are followed alike where both trees have the same on the way. -/
theorem follow_of_same
    (same : ∀ done, done <+: names → v.node? (walk l done) = u.node? (walk l done)) :
    v.follow l names = u.follow l names := by
  induction names generalizing l with
  | nil => rfl
  | cons name rest ih =>
      have here : v.node? l = u.node? l := same [] (List.nil_prefix)
      have onward := fun done inside =>
        same (name :: done) (List.cons_prefix_cons.mpr ⟨rfl, inside⟩)
      rw [follow, follow, here]
      cases u.node? l with
      | none => rfl
      | some node =>
          cases node with
          | file content mode => rfl
          | directory =>
              simp only
              split
              · rfl
              split
              · rename_i isBack
                apply ih
                intro done inside
                have later := onward done inside
                rwa [walk, if_pos (show name = back from isBack)] at later
              · rename_i forward
                apply ih
                intro done inside
                have later := onward done inside
                rwa [walk, if_neg (show ¬ name = back from forward)] at later

/-- A path leads to the same location in both trees, or only in the second one, where the first has
nothing. -/
theorem locate_alike (pair : Comparable u v) (alike : AlikeAlong u v (u.startOf p) p.parts) :
    v.locate p = u.locate p ∨
      u.locate p = .ok (.error .notFound) ∧ u.node? (u.placeOf p) = none ∧
        v.locate p = .ok (.ok (u.placeOf p)) := by
  by_cases named : IsNamed p
  · rw [locate_of_named named, locate_of_named named, pair.startOf]
    rcases follow_alike pair alike with same | ⟨missing, nothing, reached⟩
    · exact .inl (congrArg Except.ok same)
    · exact .inr ⟨congrArg Except.ok missing, nothing, congrArg Except.ok reached⟩
  · exact .inl (locate_same_of_unnamed named v u)

/-- A path leads to the same location where both trees have the same on the way. -/
theorem locate_of_same (pair : Comparable u v)
    (same : ∀ l, u.IsOnWay p l → v.node? l = u.node? l) : v.locate p = u.locate p := by
  by_cases named : IsNamed p
  · rw [locate_of_named named, locate_of_named named, pair.startOf]
    exact congrArg Except.ok (follow_of_same fun done inside => same _ ⟨done, inside, rfl⟩)
  · exact locate_same_of_unnamed named v u

/-! ## Looking at a path in both trees -/

theorem placeOf_of_locate (found : tree.locate p = .ok (.ok l)) : l = tree.placeOf p :=
  resolve_eq_placeOf (resolve_eq_ok.mpr found)

/-- A path that leads to the same location in both trees, with the same there, is looked up
alike. -/
theorem lookup_of_located (located : v.locate p = u.locate p)
    (place : ∀ l, u.resolve p = .ok l → v.node? l = u.node? l) : v.lookup p = u.lookup p := by
  unfold lookup
  rw [located]
  cases found : u.locate p with
  | error e => rfl
  | ok reached =>
      cases reached with
      | error e => cases e <;> rfl
      | ok l => exact congrArg Except.ok (place l (resolve_eq_ok.mpr found))

theorem Alike.lookup_eq (alike : Alike u v p) (pair : Comparable u v) :
    v.lookup p = u.lookup p := by
  rcases locate_alike pair alike.along with located | ⟨missing, nothing, reached⟩
  · refine lookup_of_located located fun l found => ?_
    rw [resolve_eq_placeOf found]
    exact alike.place
  · unfold lookup
    rw [missing, reached]
    exact congrArg Except.ok (alike.place.trans nothing)

theorem Alike.isFile_eq (alike : Alike u v p) (pair : Comparable u v) :
    v.isFile p = u.isFile p := by
  unfold isFile
  rw [alike.lookup_eq pair]

theorem Alike.isDirectory_eq (alike : Alike u v p) (pair : Comparable u v) :
    v.isDirectory p = u.isDirectory p := by
  unfold isDirectory
  rw [alike.lookup_eq pair]

theorem Alike.holds_eq (alike : Alike u v p) (pair : Comparable u v) : v.holds p = u.holds p := by
  unfold holds
  rw [alike.lookup_eq pair]

/-- The same is read from a path in both trees, and refused in the same words. -/
theorem Alike.read_eq (alike : Alike u v p) (pair : Comparable u v) : v.read p = u.read p := by
  unfold read resolve
  rcases locate_alike pair alike.along with located | ⟨missing, nothing, reached⟩
  · rw [located]
    cases found : u.locate p with
    | error e => rfl
    | ok reached =>
        cases reached with
        | error e => rfl
        | ok l =>
            simp only [bind, Except.bind, pure, Except.pure]
            rw [placeOf_of_locate found, alike.place]
  · rw [missing, reached]
    simp only [bind, Except.bind, pure, Except.pure, alike.place.trans nothing]
    rfl

/-- A path leads to the same in both trees. -/
theorem Alike.found?_eq (alike : Alike u v p) (pair : Comparable u v) :
    v.found? p = u.found? p := by
  unfold found? resolve
  rcases locate_alike pair alike.along with located | ⟨missing, nothing, reached⟩
  · rw [located]
    cases found : u.locate p with
    | error e => rfl
    | ok reached =>
        cases reached with
        | error e => rfl
        | ok l =>
            simp only [bind, Except.bind, pure, Except.pure]
            rw [placeOf_of_locate found, alike.place]
  · rw [missing, reached]
    simp only [bind, Except.bind, pure, Except.pure]
    exact alike.place.trans nothing

/-- Where the path leads to a directory of the first tree, nothing on its way is new. -/
theorem AlikeAlong.same_of_directory (alike : AlikeAlong u v (u.startOf p) p.parts)
    (found : u.resolve p = .ok l) (directory : u.node? l = some .directory) :
    ∀ m, u.IsOnWay p m → v.node? m = u.node? m := by
  rintro m ⟨done, ⟨rest, parts⟩, rfl⟩
  rcases alike done rest parts.symm with same | ⟨⟨nothing, _⟩, _⟩
  · exact same
  · -- Everything on the way is a directory, so nothing is missing there.
    exfalso
    have followed := (locate_eq_ok.mp (resolve_eq_ok.mp found)).2
    rw [← parts] at followed
    obtain ⟨middle, first, second⟩ := follow_append_ok.mp followed
    rw [← follow_eq_walk first] at nothing
    cases rest with
    | nil =>
        rw [follow, Except.ok.injEq] at second
        rw [second, directory] at nothing
        exact absurd nothing (by simp)
    | cons name others =>
        rw [(follow_cons_ok.mp second).1] at nothing
        exact absurd nothing (by simp)

end ModulePackaging.Files.Tree
