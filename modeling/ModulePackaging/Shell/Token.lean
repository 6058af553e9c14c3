import ModulePackaging.Shell.Script
import ModulePackaging.Text.Digit

/-!
# Tokens of shell scripts

Cuts the text of a script into words, signs and redirections. Quotes and backslashes guard what they
stand around; a dollar sign brings in a parameter.
-/

namespace ModulePackaging.Shell

/-- A redirection sign. -/
inductive Arrow
  | fromFile
  | intoFile
  | atEndOf
  | like
  deriving DecidableEq

/-- A token of a script. -/
inductive Token
  | word (w : Word)
  | sign (t : Text)
  | arrow (stream : Nat) (kind : Arrow)
  deriving DecidableEq

namespace Token

/-- The signs, longer ones first. -/
def signs : List Text := ["&&", "||", ";;", ";", "\n", "|", "&", "(", ")"]

/-- The redirection signs, longer ones first, each with the stream it stands for by itself. -/
def arrows : List (Text × Nat × Arrow) := [
  (">>", 1, .atEndOf), (">&", 1, .like), (">|", 1, .intoFile), ("<&", 0, .like),
  ("<", 0, .fromFile), (">", 1, .intoFile)]

/-- The sign at the start of a text, and the rest. -/
def takeSign? (t : Text) : Option (Token × Text) :=
  (signs.find? (·.isPrefixOf t)).map fun found => (.sign found, t.drop found.length)

/-- The redirection at the start of a text, and the rest; a number before it names the stream. -/
def takeArrow? (t : Text) : Option (Token × Text) := do
  let digits := t.takeWhile CodePoint.isAsciiDigit
  let rest := t.drop digits.length
  let (found, stream, kind) ← arrows.find? fun (found, _) => found.isPrefixOf rest
  let named := digits.foldl (fun n c => 10 * n + (c.val - 0x30)) 0
  return (.arrow (if digits.isEmpty then stream else named) kind, rest.drop found.length)

/-- The code points that end a word. -/
def endsWord (c : CodePoint) : Bool :=
  c = ' ' || c = '\t' || c = '\n' || c = ';' || c = '&' || c = '|' || c = '<' || c = '>' ||
    c = '(' || c = ')'

/-- A code point that a name may start with. -/
def startsName (c : CodePoint) : Bool := c.isAsciiLetter || c = '_'

/-- A code point that a name may hold. -/
def isInName (c : CodePoint) : Bool := startsName c || c.isAsciiDigit

/-- A code point that is a parameter by itself. -/
def isSpecial (c : CodePoint) : Bool :=
  c.isAsciiDigit || c = '@' || c = '*' || c = '#' || c = '?' || c = '$' || c = '!' || c = '-'

/-- The brace before a name that is set apart. -/
def openBrace : CodePoint := 0x7B

/-- The brace behind a name that is set apart. -/
def closeBrace : CodePoint := 0x7D

/-- The parameter behind a dollar sign, and the rest; the sign itself if there is none. -/
def takeParameter (guarded : Bool) : Text → Piece × Text
  | [] => (.text "$" guarded, [])
  | c :: rest =>
    if isSpecial c then (.parameter [c] guarded, rest)
    else if startsName c then
      (.parameter ((c :: rest).takeWhile isInName) guarded, (c :: rest).dropWhile isInName)
    else if c = openBrace then
      let name := rest.takeWhile fun c => c ≠ closeBrace
      (.parameter name guarded, rest.drop (name.length + 1))
    else (.text "$" guarded, c :: rest)

/-- What stands up to a single quote, and the rest behind it. -/
def takeSingle (t : Text) : Except ScriptError (Word × Text) :=
  let inside := t.takeWhile fun c => c ≠ 0x27
  match t.drop inside.length with
  | [] => .error .openQuote
  | _ :: rest => .ok ([.text inside true], rest)

/-- What a backslash guards: the code point behind it, and the rest. -/
def takeGuarded? (c : CodePoint) (rest : Text) : Option (CodePoint × Text) :=
  match rest with
  | [] => none
  | d :: after => if c = '\\' then some (d, after) else none

/-- The code points that a backslash guards between double quotes. -/
def isGuardedInDouble (c : CodePoint) : Bool := c = '$' || c = 0x60 || c = '"' || c = '\\'

/-- What stands up to a double quote, behind the parts `read`, and the rest behind it. -/
def takeDouble : Nat → Word → Text → Except ScriptError (Word × Text)
  | 0, _, _ | _, _, [] => .error .openQuote
  | fuel + 1, read, c :: rest =>
    if c = '"' then .ok (read, rest)
    else if c = '$' then
      let (piece, rest) := takeParameter true rest
      takeDouble fuel (read ++ [piece]) rest
    else match takeGuarded? c rest with
      | some (d, after) =>
        if d = '\n' then takeDouble fuel read after
        else if isGuardedInDouble d then takeDouble fuel (read ++ [.text [d] true]) after
        else takeDouble fuel (read ++ [.text [c, d] true]) after
      | none => takeDouble fuel (read ++ [.text [c] true]) rest

/-- The word at the start of a text, behind the parts `read`, and the rest. -/
def takeWord : Nat → Word → Text → Except ScriptError (Word × Text)
  | 0, read, t => .ok (read, t)
  | _, read, [] => .ok (read, [])
  | fuel + 1, read, c :: rest =>
    if endsWord c then .ok (read, c :: rest)
    else if c = '\'' then do
      let (inside, rest) ← takeSingle rest
      takeWord fuel (read ++ inside) rest
    else if c = '"' then do
      let (inside, rest) ← takeDouble (rest.length + 1) [.text [] true] rest
      takeWord fuel (read ++ inside) rest
    else if c = '$' then
      let (piece, rest) := takeParameter false rest
      takeWord fuel (read ++ [piece]) rest
    else match takeGuarded? c rest with
      | some (d, after) =>
        if d = '\n' then takeWord fuel read after
        else takeWord fuel (read ++ [.text [d] true]) after
      | none => takeWord fuel (read ++ [.text [c] false]) rest

/-- The tokens of a text. -/
def read : Nat → Text → Except ScriptError (List Token)
  | 0, _ | _, [] => .ok []
  | fuel + 1, c :: rest =>
    if c = ' ' ∨ c = '\t' then read fuel rest
    else if c = '#' then read fuel (rest.dropWhile fun c => c ≠ '\n')
    else if c = '\\' ∧ rest.head? = some '\n' then read fuel rest.tail
    else match takeArrow? (c :: rest) <|> takeSign? (c :: rest) with
      | some (token, rest) => do return token :: (← read fuel rest)
      | none => do
        let (w, rest) ← takeWord (rest.length + 2) [] (c :: rest)
        return .word w :: (← read fuel rest)

/-- The tokens of a script. -/
def ofText (t : Text) : Except ScriptError (List Token) := read (t.length + 1) t

/-- Whether a token is a sign. -/
def isSign (t : Text) : Token → Bool
  | sign u => u == t
  | _ => false

/-- Whether a token is a word without quotes and parameters. -/
def isPlain (t : Text) : Token → Bool
  | word w => w.plain? == some t
  | _ => false

end Token

end ModulePackaging.Shell
