import ModulePackaging.Text.Basic

/-!
# Shell scripts

The part of the shell language that compile commands are written in: simple commands with
parameters, quotes and redirections, and lists, pipes, choices, loops and groups of them.
-/

namespace ModulePackaging.Shell

/-- A part of a word: text as it stands, or a parameter in whose place its value goes. A part that
stands in quotes is guarded: it is never split at blanks. -/
inductive Piece
  | text (t : Text) (guarded : Bool)
  | parameter (name : Text) (guarded : Bool)
  deriving DecidableEq

/-- A word is its parts, in order. -/
abbrev Word := List Piece

/-- Where a stream of a command comes from or goes to. -/
inductive Channel
  | fromFile (path : Word)
  | intoFile (path : Word)
  | atEndOf (path : Word)
  | like (stream : Word)
  deriving DecidableEq

/-- A redirection of a numbered stream. -/
structure Redirection where
  stream : Nat
  channel : Channel
  deriving DecidableEq

/-- A script. -/
inductive Script
  | nothing
  | simple (assignments : List (Text × Word)) (words : List Word) (redirections : List Redirection)
  | sequence (first second : Script)
  | both (first second : Script)
  | either (first second : Script)
  | inverse (body : Script)
  | pipe (first second : Script)
  | choice (condition yes no : Script)
  | each (name : Text) (words : List Word) (body : Script)
  | group (body : Script) (apart : Bool) (redirections : List Redirection)

namespace Word

/-- The text of a word that has no quotes and no parameters. -/
def plain? : Word → Option Text
  | [] => some []
  | .text t false :: rest => (plain? rest).map (t ++ ·)
  | _ => none

end Word

/-- Why a text is no script. -/
inductive ScriptError
  | openQuote
  | unexpected (found : Text) (wanted : Option Text)

/-- The refusal in words. -/
def ScriptError.message : ScriptError → Text
  | .openQuote => "Syntax error: Unterminated quoted string"
  | .unexpected found none => "Syntax error: " ++ found ++ " unexpected"
  | .unexpected found (some wanted) =>
    "Syntax error: " ++ found ++ " unexpected (expecting \"" ++ wanted ++ "\")"

end ModulePackaging.Shell
