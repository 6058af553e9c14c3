import ModulePackaging.Files.Tree
import ModulePackaging.Shell.Script
import ModulePackaging.Text.Digit

/-!
# Shell sessions

What a running script sees and changes: the files, the variables, its arguments, and where its
streams go. Words are expanded here: a parameter gives way to its value, and an unguarded value is
split at its blanks.
-/

namespace ModulePackaging.Shell

/-- Where a stream goes. -/
inductive Sink
  | output
  | errors
  | file (location : Files.Location)
  | nowhere

/-- What a script sees and changes. The first argument is the name of the script. -/
structure Session where
  files : Files.Tree
  bindings : List (Text × Text)
  arguments : List Text
  status : Nat
  input : Bytes
  output : Bytes
  errors : Bytes
  outputSink : Sink
  errorSink : Sink
  strict : Bool

/-- How a script ends before its end. -/
inductive Ending
  | exited (status : Nat)
  | killed (signal : Nat)

/-- A step of a script. -/
abbrev Step (α : Type) := ExceptT Ending (StateM Session) α

namespace Session

variable (session : Session)

/-- The name that messages give a script. -/
def name : Text := session.arguments.headD "sh"

/-- The process number that a script finds. -/
def processNumber : Text := "4242"

/-- The session with bytes sent to a sink. -/
def send (sink : Sink) (bytes : Bytes) : Session :=
  match sink with
  | .output => { session with output := session.output ++ bytes }
  | .errors => { session with errors := session.errors ++ bytes }
  | .nowhere => session
  | .file location =>
    match session.files.node? location with
    | some (.file content mode) =>
      { session with files := session.files.set location (.file (content ++ bytes) mode) }
    | _ => session

/-- The session with a variable set. -/
def assign (name value : Text) : Session :=
  { session with bindings := (name, value) :: session.bindings }

/-- The value of a parameter; empty if it has none. -/
def valueOf (parameter : Text) : Text :=
  if parameter = ("?" : Text) then Text.ofNat session.status
  else if parameter = ("$" : Text) then processNumber
  else if parameter = ("#" : Text) then Text.ofNat session.arguments.tail.length
  else if [("@" : Text), "*"].contains parameter then Text.joined " " session.arguments.tail
  else if !parameter.isEmpty && parameter.all CodePoint.isAsciiDigit then
    let place := parameter.foldl (fun n c => 10 * n + (c.val - 0x30)) 0
    session.arguments.getD place []
  else (session.bindings.lookup parameter).getD []

end Session

/-- Fields that are being made: those that are complete, and the last one if it has begun. -/
structure Fields where
  complete : List Text
  last : Option Text

namespace Fields

/-- Before the first field. -/
def none : Fields := ⟨[], Option.none⟩

/-- Adds to the last field. -/
def add (fields : Fields) (t : Text) : Fields :=
  { fields with last := some (fields.last.getD [] ++ t) }

/-- Ends the last field. -/
def close (fields : Fields) : Fields :=
  match fields.last with
  | some t => ⟨fields.complete ++ [t], Option.none⟩
  | Option.none => fields

/-- Adds a text that is split at its blanks. -/
def addSplit (fields : Fields) : Text → Fields
  | [] => fields
  | c :: rest =>
    if c = ' ' ∨ c = '\t' ∨ c = '\n' then addSplit fields.close rest
    else addSplit (fields.add [c]) rest

/-- Adds texts of which each starts a field, save the first. -/
def addEach (fields : Fields) : List Text → Fields
  | [] => fields
  | [t] => fields.add t
  | t :: rest => addEach (fields.add t).close rest

/-- Adds a part of a word. -/
def addPiece (session : Session) (fields : Fields) : Piece → Fields
  | .text t _ => fields.add t
  | .parameter name guarded =>
    if !guarded then fields.addSplit (session.valueOf name)
    else if name = ("@" : Text) then fields.addEach session.arguments.tail
    else fields.add (session.valueOf name)

end Fields

namespace Session

variable (session : Session)

/-- The fields that a word expands to. A word that holds nothing but a list of arguments expands to
nothing if there are none. -/
def fieldsOf (w : Word) : List Text :=
  (w.foldl (Fields.addPiece session) Fields.none).close.complete

/-- The text that a word expands to where it is not split. -/
def textOf (w : Word) : Text :=
  w.flatMap fun
    | .text t _ => t
    | .parameter name _ => session.valueOf name

end Session

namespace Step

/-- Sends bytes to where the output goes. -/
def put (bytes : Bytes) : Step Unit := modify fun s => s.send s.outputSink bytes

/-- Sends a line to where errors go. -/
def complain (t : Text) : Step Unit :=
  modify fun s => s.send s.errorSink ((t ++ "\n").flatMap Utf8.encodePoint)

/-- Sets the status of the last command. -/
def setStatus (status : Nat) : Step Unit := modify fun s => { s with status }

/-- Ends a command with a complaint of the script and a status. -/
def fail (t : Text) (status : Nat) : Step Unit := do
  complain ((← get).name ++ ": 1: " ++ t)
  setStatus status

/-- Ends a command with a complaint of a program and a status. -/
def failAs (program t : Text) (status : Nat) : Step Unit := do
  complain (program ++ ": " ++ t)
  setStatus status

end Step

end ModulePackaging.Shell
