import ModulePackaging.Version.Basic

/-!
# The order of versions

Versions are compared by their numbers, then by their pre-releases: a release comes after each of
its pre-releases, and identifiers are compared one by one, numbers by value and below words. The
build does not count. A number of more than 4300 digits in a pre-release cannot be compared with
another one.
-/

namespace ModulePackaging.Version

/-- How two different identifiers compare. -/
def compareIdentifiers (x y : Text) : Except VersionError Ordering :=
  match x.isDigits, y.isDigits with
  | true, true => do
    let m ← number x
    let n ← number y
    return if m < n then .lt else .gt
  | true, false => .ok .lt
  | false, true => .ok .gt
  | false, false => .ok (if x < y then .lt else .gt)

/-- How two lists of identifiers compare; a list comes after each of its beginnings. -/
def compareParts : List Text → List Text → Except VersionError Ordering
  | [], [] => .ok .eq
  | [], _ :: _ => .ok .lt
  | _ :: _, [] => .ok .gt
  | x :: xs, y :: ys => if x = y then compareParts xs ys else compareIdentifiers x y

/-- How two pre-releases compare; none at all comes last. -/
def comparePrereleases (a b : List Text) : Except VersionError Ordering :=
  match a, b with
  | [], [] => .ok .eq
  | [], _ :: _ => .ok .gt
  | _ :: _, [] => .ok .lt
  | _, _ => compareParts a b

/-- How the cores of two versions compare. -/
def compareCores (a b : Version) : Ordering :=
  (compare a.major b.major).then ((compare a.minor b.minor).then (compare a.patch b.patch))

/-- How two versions compare. -/
def order (a b : Version) : Except VersionError Ordering :=
  match compareCores a b with
  | .eq => comparePrereleases a.prerelease b.prerelease
  | decided => .ok decided

/-- Whether one version comes before another. -/
def precedes (a b : Version) : Except VersionError Bool := do return (← order a b) == .lt

/-- Whether two versions have the same rank. -/
def sameRank (a b : Version) : Except VersionError Bool := do return (← order a b) == .eq

/-- Whether a version comes before another one or has its rank. -/
def atMost (a b : Version) : Except VersionError Bool := do
  if ← precedes a b then return true else sameRank a b

/-- Whether a version comes after another one. -/
def follows (a b : Version) : Except VersionError Bool := do
  if ← precedes a b then return false else return !(← sameRank a b)

/-- Whether a version comes after another one or has its rank. -/
def atLeast (a b : Version) : Except VersionError Bool := do return !(← precedes a b)

/-- What decides that two versions count as one: the core and the pre-release. -/
def rank (v : Version) : List Nat × List Text := (v.core, v.prerelease)

/-- The hash of a version, for a way to hash ranks: the build has no part in it. -/
def hash (hashRank : List Nat × List Text → Int) (v : Version) : Int := hashRank v.rank

/-- The versions, of each rank the first. -/
def distinctRanks (versions : List Version) : List Version :=
  versions.foldl
    (fun kept v => if kept.any (·.rank == v.rank) then kept else kept ++ [v]) []

/-- Finds in `sorted`, between `low` and `high`, the place in front of which `v` comes last. -/
def insertionPlace (sorted : Array Version) (v : Version) :
    Nat → Nat → Nat → Except VersionError Nat
  | 0, low, _ => .ok low
  | fuel + 1, low, high =>
    if low < high then do
      let middle := (low + high) / 2
      let pivot := sorted.getD middle v
      if ← precedes v pivot then insertionPlace sorted v fuel low middle
      else insertionPlace sorted v fuel (middle + 1) high
    else .ok low

/-- Puts the versions one by one into a sorted array, each after those of its rank. -/
def insertAll (sorted : Array Version) : List Version → Except VersionError (Array Version)
  | [] => .ok sorted
  | v :: rest => do
    let place ← insertionPlace sorted v (sorted.size + 1) 0 sorted.size
    insertAll (sorted.insertIdxIfInBounds place v) rest

/-- The longest start of `rest` that goes on from `last` upwards, in order, and what follows. -/
def ascendingRun (run : List Version) (last : Version) :
    List Version → Except VersionError (List Version × List Version)
  | [] => .ok (run.reverse, [])
  | v :: rest => do
    if ← precedes v last then return (run.reverse, v :: rest) else ascendingRun (v :: run) v rest

/-- The longest start of `rest` that goes on from `last` downwards, turned round, and what
follows. -/
def descendingRun (run : List Version) (last : Version) :
    List Version → Except VersionError (List Version × List Version)
  | [] => .ok (run, [])
  | v :: rest => do
    if ← precedes v last then descendingRun (v :: run) v rest else return (run, v :: rest)

/-- The versions in ascending order; those of one rank keep their order. The run that the list
starts with is kept, and each later version is put into its place. -/
def sort : List Version → Except VersionError (List Version)
  | [] => .ok []
  | [v] => .ok [v]
  | v :: w :: rest => do
    let (run, others) ←
      if ← precedes w v then descendingRun [w, v] w rest else ascendingRun [w, v] w rest
    return (← insertAll run.toArray others).toList

end ModulePackaging.Version
