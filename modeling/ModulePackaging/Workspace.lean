import ModulePackaging.Fault
import ModulePackaging.Files.Tree
import ModulePackaging.Log
import ModulePackaging.Text.Blank

/-!
# Working on files

What an operation works on: the files as they are, and the log that it adds to. An operation gives a
value or a fault, and what it did before a fault stays done.
-/

namespace ModulePackaging

/-- The files, the log (in order), and the mark that the names of temporary files end with. -/
structure Workspace where
  files : Files.Tree
  log : List LogRecord
  mark : Text

/-- An operation on a workspace that may end early. -/
abbrev Action (α : Type) := ExceptT Fault (StateM Workspace) α

namespace Action

variable {α ε : Type}

/-- The value of a result, or its refusal as a fault. -/
def ofExcept (toFault : ε → Fault) (result : Except ε α) : Action α :=
  match result with
  | .ok a => pure a
  | .error e => throw (toFault e)

/-- Adds a record to the log. -/
def note (record : LogRecord) : Action Unit := modify fun w => { w with log := w.log ++ [record] }

/-- Adds records to the log. -/
def noteAll (records : List LogRecord) : Action Unit :=
  modify fun w => { w with log := w.log ++ records }

/-- What the files tell. -/
def ask (question : Files.Tree → Except Files.Error α) : Action α := do
  ofExcept .files (question (← get).files)

/-- Changes the files, unless that is refused. -/
def change (step : Files.Tree → Except Files.Error Files.Tree) : Action Unit := do
  let files ← ofExcept .files (step (← get).files)
  modify fun w => { w with files }

/-- Makes a directory and all those above it that are missing. -/
def makeDirectories (p : Path) : Action Unit := do
  let (files, refusal) := (← get).files.makeDirectories p
  modify fun w => { w with files }
  match refusal with
  | some e => throw (.files e)
  | none => pure ()

/-- How an operation ends, as a value. -/
def attempt (work : Action α) : Action (Except Fault α) :=
  ExceptT.mk do return .ok (← work.run)

/-- The text of a file in UTF-8, its line ends unified. -/
def readText (p : Path) : Action Text := do
  let bytes ← ask (·.read p)
  let t ← ofExcept .undecodable (Utf8.decode bytes)
  return t.unifyLineEnds

/-- The JSON value in a file. -/
def readJson (p : Path) : Action Json := do
  ofExcept .json (Json.read (← readText p))

/-- Writes a file with the standard mode. -/
def writeFile (p : Path) (content : Bytes) : Action Unit :=
  change (·.write p content Files.Tree.defaultMode)

/-- Puts a value into a file in its canonical form with a line end. The value is written beside the
file and moved into its place, so the file never holds a part of it. -/
def storeJson (p : Path) (value : Json) : Action Unit := do
  makeDirectories p.parent
  match p.withName? (p.name ++ ".tmp." ++ (← get).mark) with
  | none => throw (.files (.noName p.toText))
  | some temporary => do
    let bytes ← ofExcept id value.storedBytes
    writeFile temporary (bytes ++ [0x0A])
    change (·.replace temporary p)

end Action

end ModulePackaging
