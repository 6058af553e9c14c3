import ModulePackaging.Encoding.Base64

/-!
# Armoured files

A file of text in which blocks of base 64 stand between a line that begins and one that ends them,
each with the label of what is inside.
-/

namespace ModulePackaging.Pem

/-- A block: its label and its content. -/
structure Block where
  label : Text
  content : Bytes

/-- What a line that begins a block starts with. -/
def beginning : Text := "-----BEGIN "

/-- What a line that ends a block starts with. -/
def ending : Text := "-----END "

/-- What both lines end with. -/
def fence : Text := "-----"

/-- The label in a line that begins with `start`. -/
def labelOf? (start line : Text) : Option Text :=
  let line := (line.reverse.dropWhile fun c => c.val ≤ 0x20).reverse
  if start.isPrefixOf line && fence.isSuffixOf line &&
      decide (start.length + fence.length ≤ line.length) then
    some ((line.drop start.length).take (line.length - start.length - fence.length))
  else none

/-- The content of the lines of a block. Lines of headers, as encrypted keys have, are refused. -/
def contentOf? (lines : List Text) : Option Bytes :=
  if lines.any (·.contains ':') then none
  else
    let letters := lines.flatten.filter fun c => 0x20 < c.val
    match Base64.decode letters with
    | .ok content => some content
    | .error _ => none

/-- Reads blocks line by line; `current` is the block that has begun: its label and its lines (the
latest first). A block that is not sound is left out. -/
def blocksFrom : Option (Text × List Text) → List Text → List (Text × Option Bytes)
  | _, [] => []
  | none, line :: rest =>
    match labelOf? beginning line with
    | some label => blocksFrom (some (label, [])) rest
    | none => blocksFrom none rest
  | some (label, lines), line :: rest =>
    match labelOf? ending line with
    | some last =>
      (label, if last = label then contentOf? lines.reverse else none) :: blocksFrom none rest
    | none => blocksFrom (some (label, line :: lines)) rest

/-- The blocks of a file in order, each with its content if that can be read. -/
def blocks (t : Text) : List (Text × Option Bytes) := blocksFrom none (t.splitOn 0x0A)

/-- Lines of 64 letters, each with its end; the fuel bounds their number. -/
def wrap : Nat → Text → Text
  | 0, t => t
  | fuel + 1, t =>
    if t.isEmpty then []
    else t.take 64 ++ ([0x0A] : Text) ++ wrap fuel (t.drop 64)

/-- A file with one block. -/
def write (block : Block) : Text :=
  let letters := Base64.encode block.content
  beginning ++ block.label ++ fence ++ "\n" ++ wrap letters.length letters ++
    ending ++ block.label ++ fence ++ "\n"

end ModulePackaging.Pem
