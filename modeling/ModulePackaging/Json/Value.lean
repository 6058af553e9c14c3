import ModulePackaging.Decimal.Binary64
import ModulePackaging.Text.Basic

/-!
# JSON values

The values that configuration files, manifests and tables are made of. An object keeps its members
in the order in which their keys first came. Whole numbers and numbers with a fraction are told
apart, yet compare by value, and `true` and `false` compare as one and zero.
-/

namespace ModulePackaging

/-- A JSON value. -/
inductive Json
  | null
  | bool (b : Bool)
  | int (n : Int)
  | float (x : Binary64)
  | str (t : Text)
  | arr (items : List Json)
  | obj (members : List (Text × Json))

/-- The members of an object, each key once. -/
abbrev Members := List (Text × Json)

namespace Members

/-- The value of a key. -/
def get? (key : Text) : Members → Option Json
  | [] => none
  | (k, v) :: rest => if k = key then some v else get? key rest

/-- Sets a key: in its place if it is there, else after all others. -/
def put (key : Text) (value : Json) : Members → Members
  | [] => [(key, value)]
  | (k, v) :: rest => if k = key then (key, value) :: rest else (k, v) :: put key value rest

/-- The members that a sequence of assignments leaves: the last value of each key. -/
def ofPairs (pairs : List (Text × Json)) : Members :=
  pairs.foldl (fun members (k, v) => members.put k v) []

/-- The keys in order. -/
def keys (members : Members) : List Text := members.map Prod.fst

end Members

namespace Json

/-- The name of the kind of value, as messages give it. -/
def kindName : Json → Text
  | null => "NoneType"
  | bool _ => "bool"
  | int _ => "int"
  | float _ => "float"
  | str _ => "str"
  | arr _ => "list"
  | obj _ => "dict"

/-- Null, false, zero and all that is empty count as absent. -/
def isTruthy : Json → Bool
  | null => false
  | bool b => b
  | int n => n != 0
  | float x => x.isNonzero
  | str t => !t.isEmpty
  | arr items => !items.isEmpty
  | obj members => !members.isEmpty

/-- Where a value stands among the numbers. -/
def place? : Json → Option Binary64.Place
  | bool b => some (.at (if b then 1 else 0) 0)
  | int n => some (.at n 0)
  | float x => x.place?
  | _ => none

/-- Whether a value is the whole number `n`, however it is written. -/
def equalsInt (value : Json) (n : Int) : Bool :=
  match value.place? with
  | some place => place.compare (.at n 0) == .eq
  | none => false

/-- Whether a value is the text `t`. -/
def equalsText (value : Json) (t : Text) : Bool :=
  match value with
  | str u => u == t
  | _ => false

/-- A value that a set can hold: no array and no object. -/
def isScalar : Json → Bool
  | arr _ | obj _ => false
  | _ => true

/-- Whether two scalars count as one member of a set. -/
def sameScalar : Json → Json → Bool
  | null, null => true
  | str a, str b => a == b
  | a, b =>
    match a.place?, b.place? with
    | some p, some q => p.compare q == .eq
    | _, _ => false

/-- The text of a value that has to be a text. -/
def text? : Json → Option Text
  | str t => some t
  | _ => none

/-- The value of an optional text. -/
def ofText? : Option Text → Json
  | some t => str t
  | none => null

/-- An array of texts. -/
def texts (ts : List Text) : Json := arr (ts.map str)

/-- The members of an object. -/
def members? : Json → Option Members
  | obj members => some members
  | _ => none

end Json

end ModulePackaging
