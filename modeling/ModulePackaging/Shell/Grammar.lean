import ModulePackaging.Shell.Token

/-!
# The grammar of shell scripts

Reads a script from its tokens. A list is made of pipes of commands joined by `&&` and `||`, each
ended by a semicolon or a line end; a command is simple, or a choice, a loop or a group with a list
inside.
-/

namespace ModulePackaging.Shell

namespace Script

/-- The words that only have a meaning where a command may start. -/
def closers : List Text := ["then", "else", "elif", "fi", "do", "done", "\x7d"]

/-- A token as a refusal names it. -/
def shown : List Token → Text
  | [] => "end of file"
  | .word w :: _ =>
    match w.plain? with
    | some t => if closers.contains t then "\"" ++ t ++ "\"" else "word"
    | none => "word"
  | .sign t :: _ => if t = ("\n" : Text) then "newline" else "\"" ++ t ++ "\""
  | .arrow _ _ :: _ => "redirection"

/-- The refusal of the next token. -/
def refused {α : Type} (tokens : List Token) (wanted : Option Text) : Except ScriptError α :=
  .error (.unexpected (shown tokens) wanted)

/-- The tokens behind line ends. -/
def skipLineEnds (tokens : List Token) : List Token := tokens.dropWhile (Token.isSign "\n")

/-- Takes a word with a meaning of its own. -/
def expect (t : Text) (tokens : List Token) : Except ScriptError (List Token) :=
  match tokens with
  | token :: rest => if token.isPlain t then .ok rest else refused tokens (some t)
  | [] => refused tokens (some t)

/-- Whether a list ends before the next token. -/
def endsList : List Token → Bool
  | [] => true
  | token :: _ => token.isSign ")" || closers.any token.isPlain

/-- The channel of a redirection whose word is `w`. -/
def channel (w : Word) : Arrow → Channel
  | .fromFile => .fromFile w
  | .intoFile => .intoFile w
  | .atEndOf => .atEndOf w
  | .like => .like w

/-- The redirections at the start of tokens. -/
def takeRedirections : List Token → Except ScriptError (List Redirection × List Token)
  | .arrow stream kind :: .word w :: rest => do
    let (others, rest) ← takeRedirections rest
    return (⟨stream, channel w kind⟩ :: others, rest)
  | .arrow _ _ :: rest => refused rest none
  | tokens => .ok ([], tokens)

/-- The assignment that a word is: a name, `=` and the value. -/
def assignment? : Word → Option (Text × Word)
  | .text t false :: rest =>
    match t with
    | [] => none
    | c :: _ =>
      let name := t.takeWhile Token.isInName
      match t.drop name.length with
      | d :: value =>
        if Token.startsName c ∧ d = '=' then some (name, .text value false :: rest) else none
      | [] => none
  | _ => none

/-- Joins the neighbours among the unguarded texts of a word. -/
def merge : Word → Word
  | .text t false :: rest =>
    match merge rest with
    | .text u false :: others => .text (t ++ u) false :: others
    | others => .text t false :: others
  | piece :: rest => piece :: merge rest
  | [] => []

/-- A simple command at the start of tokens, behind the parts that are read. -/
def takeSimple (assignments : List (Text × Word)) (words : List Word)
    (redirections : List Redirection) :
    List Token → Except ScriptError (Script × List Token)
  | .word w :: rest =>
    match words.isEmpty, assignment? (merge w) with
    | true, some assigned => takeSimple (assignments ++ [assigned]) words redirections rest
    | _, _ => takeSimple assignments (words ++ [w]) redirections rest
  | .arrow stream kind :: .word w :: rest =>
    takeSimple assignments words (redirections ++ [⟨stream, channel w kind⟩]) rest
  | .arrow _ _ :: rest => refused rest none
  | tokens =>
    if assignments.isEmpty && words.isEmpty && redirections.isEmpty then refused tokens none
    else .ok (.simple assignments words redirections, tokens)

/-- The words of a loop. -/
def takeWords : List Token → List Word × List Token
  | .word w :: rest =>
    let (words, rest) := takeWords rest
    (w :: words, rest)
  | tokens => ([], tokens)

/-- The name and the words of a loop, up to its body. -/
def takeLoopHead : List Token → Except ScriptError ((Text × List Word) × List Token)
  | .word w :: rest =>
    match w.plain? with
    | none => refused [.word w] none
    | some name => do
      let rest ← expect "in" rest
      let (words, rest) := takeWords rest
      match rest with
      | .sign t :: after =>
        if [(";" : Text), "\n"].contains t then
          return ((name, words), ← expect "do" (skipLineEnds after))
        else refused rest none
      | _ => refused rest (some "do")
  | tokens => refused tokens none

mutual

/-- A list at the start of tokens. -/
def takeList : Nat → List Token → Except ScriptError (Script × List Token)
  | 0, tokens => refused tokens none
  | fuel + 1, tokens =>
    let tokens := skipLineEnds tokens
    if endsList tokens then .ok (.nothing, tokens)
    else do
      let (first, rest) ← takeJoined fuel tokens
      match rest with
      | .sign t :: after =>
        if [(";" : Text), "\n"].contains t then
          let (others, rest) ← takeList fuel after
          return (.sequence first others, rest)
        else return (first, rest)
      | _ => return (first, rest)

/-- Commands joined by `&&` and `||`. -/
def takeJoined : Nat → List Token → Except ScriptError (Script × List Token)
  | 0, tokens => refused tokens none
  | fuel + 1, tokens => do
    let (first, rest) ← takeNegated fuel tokens
    takeMore fuel first rest

/-- What is joined to a command. -/
def takeMore : Nat → Script → List Token → Except ScriptError (Script × List Token)
  | 0, _, tokens => refused tokens none
  | fuel + 1, first, .sign t :: rest =>
    if t = ("&&" : Text) then do
      let (second, rest) ← takeNegated fuel (skipLineEnds rest)
      takeMore fuel (.both first second) rest
    else if t = ("||" : Text) then do
      let (second, rest) ← takeNegated fuel (skipLineEnds rest)
      takeMore fuel (.either first second) rest
    else .ok (first, .sign t :: rest)
  | _, first, tokens => .ok (first, tokens)

/-- A pipe, or the inverse of one. -/
def takeNegated : Nat → List Token → Except ScriptError (Script × List Token)
  | 0, tokens => refused tokens none
  | _, [] => refused [] none
  | fuel + 1, token :: rest =>
    if token.isPlain "!" then do
      let (body, rest) ← takePipe fuel rest
      return (.inverse body, rest)
    else takePipe fuel (token :: rest)

/-- Commands of which each reads what the one before it writes. -/
def takePipe : Nat → List Token → Except ScriptError (Script × List Token)
  | 0, tokens => refused tokens none
  | fuel + 1, tokens => do
    let (first, rest) ← takeCommand fuel tokens
    match rest with
    | .sign t :: after =>
      if t = ("|" : Text) then
        let (second, rest) ← takePipe fuel (skipLineEnds after)
        return (.pipe first second, rest)
      else return (first, rest)
    | _ => return (first, rest)

/-- A command. -/
def takeCommand : Nat → List Token → Except ScriptError (Script × List Token)
  | 0, tokens => refused tokens none
  | _, [] => refused [] none
  | fuel + 1, token :: rest =>
    if token.isPlain "if" then takeChoice fuel rest
    else if token.isPlain "for" then do
      let ((name, words), rest) ← takeLoopHead rest
      let (body, rest) ← takeList fuel rest
      return (.each name words body, ← expect "done" rest)
    else if token.isPlain "\x7b" then do
      let (body, rest) ← takeList fuel rest
      let (redirections, rest) ← takeRedirections (← expect "\x7d" rest)
      return (.group body false redirections, rest)
    else if token.isSign "(" then do
      let (body, rest) ← takeList fuel rest
      match rest with
      | close :: after =>
        if close.isSign ")" then
          let (redirections, rest) ← takeRedirections after
          return (.group body true redirections, rest)
        else refused rest (some ")")
      | [] => refused rest (some ")")
    else if endsList (token :: rest) then refused (token :: rest) none
    else takeSimple [] [] [] (token :: rest)

/-- A choice, behind its first word. -/
def takeChoice : Nat → List Token → Except ScriptError (Script × List Token)
  | 0, tokens => refused tokens none
  | fuel + 1, tokens => do
    let (condition, rest) ← takeList fuel tokens
    let (yes, rest) ← takeList fuel (← expect "then" rest)
    match rest with
    | [] => refused rest (some "fi")
    | token :: after =>
      if token.isPlain "elif" then
        let (no, rest) ← takeChoice fuel after
        return (.choice condition yes no, rest)
      else if token.isPlain "else" then
        let (no, rest) ← takeList fuel after
        return (.choice condition yes no, ← expect "fi" rest)
      else return (.choice condition yes .nothing, ← expect "fi" (token :: after))

end

/-- How deep the grammar can lead for each token. -/
def depthPerToken : Nat := 7

/-- The script of a text. -/
def ofText (t : Text) : Except ScriptError Script := do
  let tokens ← Token.ofText t
  let (script, rest) ← takeList (depthPerToken * (tokens.length + 1)) tokens
  if rest.isEmpty then return script else refused rest none

end Script

end ModulePackaging.Shell
