/-!
# Sorting

Lists in the order of a relation. Each item is put in front of the first one that it may precede, so
items that tie keep the order in which they came.
-/

namespace ModulePackaging

variable {α : Type}

/-- Puts an item in front of the first one that it comes before or ties with. -/
def insertBefore (le : α → α → Bool) (a : α) : List α → List α
  | [] => [a]
  | b :: rest => if le a b then a :: b :: rest else b :: insertBefore le a rest

/-- The items in ascending order. -/
def sortedBy (le : α → α → Bool) (items : List α) : List α := items.foldr (insertBefore le) []

end ModulePackaging
