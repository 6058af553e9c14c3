import ModulePackaging.HostApi.Defines
import ModulePackaging.Project.Config

/-!
# Toolchains

Nothing here compiles. A toolchain is the path of a module that is compiled already, or a command
that compiles it, which a machine runs in the source directory. What a machine does to the files is
its own affair; a build only reads the compiled module afterwards.
-/

namespace ModulePackaging

/-- A command that is to be run: the program, its arguments, the directory that it runs in and the
variables that it finds. -/
structure Invocation where
  program : Text
  arguments : List Text
  directory : Path
  bindings : List (Text × Text)

/-- How a command ended and what it wrote. A signal that ended it is a negative code. -/
structure Outcome where
  code : Int
  output : Bytes
  errors : Bytes

/-- What runs commands: the outcome and the files after it, or the reason why the command does not
start. -/
abbrev Machine := Invocation → Files.Tree → Except Files.Error (Outcome × Files.Tree)

/-- Where a compiled module comes from. -/
inductive Toolchain
  | prebuilt (artifact : Path)
  | command (words : List Text) (artifact : Path)

/-- What a toolchain is asked to compile. -/
structure CompileRequest where
  sourceDir : Path
  descriptor : Descriptor
  hostApi : ApiEntry

namespace CompileRequest

/-- The variables that a command finds. -/
def bindings (request : CompileRequest) : List (Text × Text) := [
  ("SIMPACK_DEFINES", Text.joined " " (compileDefines request.hostApi)),
  ("SIMPACK_HOST_API", request.hostApi.version.toText),
  ("SIMPACK_MODULE_NAME", request.descriptor.name),
  ("SIMPACK_HOST_TRIPLE", request.descriptor.hostTriple)]

end CompileRequest

namespace Outcome

/-- What a command wrote to one of its streams. -/
def textOf (written : Bytes) : Except Undecodable Text := do
  return (← Utf8.decode written).unifyLineEnds

/-- How many lines of what a failed command wrote are told. -/
def toldLines : Nat := 5

/-- The last lines of what a failed command wrote. -/
def tail (output errors : Text) : Text :=
  let told := (if errors.isEmpty then output else errors).trimmed.lines
  Text.joined " | " (told.drop (told.length - toldLines))

/-- Why an outcome is a failure, if it is one. -/
def failure? (outcome : Outcome) : Except Undecodable (Option Text) := do
  let output ← textOf outcome.output
  let errors ← textOf outcome.errors
  if outcome.code = 0 then return none
  return some ("toolchain exited with code " ++ Text.ofInt outcome.code ++ ": " ++
    tail output errors)

end Outcome

namespace Toolchain

/-- The toolchain of a project. -/
def ofProject (project : Project) : Except Fault Toolchain :=
  match project.artifact, project.command with
  | none, _ =>
    .error (.toolchain "build configuration names no artifact and no toolchain was given")
  | some artifact, some words => .ok (.command words artifact)
  | some artifact, none => .ok (.prebuilt artifact)

/-- The path of a compiled module, which must be there. -/
def found (request : CompileRequest) (artifact : Path) : Action Path := do
  let path := request.sourceDir / artifact
  if ← Action.ask (·.isFile path) then return path
  throw (.toolchain ("compiled artifact not found: " ++ path.toText))

/-- What running a command leaves in the log. -/
def commandRecord (words : List Text) : LogRecord :=
  ⟨.info, "simpack.toolchain", "running toolchain: " ++ Text.joined " " words⟩

/-- A command that does not start, as a fault. -/
def startFault (e : Files.Error) : Fault :=
  if (Fault.files e).isSystem then .toolchain ("toolchain command failed to run: " ++ e.message)
  else .files e

/-- Runs a command, which must end well. -/
def runCommand (machine : Machine) (request : CompileRequest) (words : List Text) :
    Action Unit := do
  Action.note (commandRecord words)
  let invocation : Invocation :=
    ⟨words.headD [], words.tail, request.sourceDir, request.bindings⟩
  let (outcome, files) ← Action.ofExcept startFault (machine invocation (← get).files)
  modify fun w => { w with files }
  match ← Action.ofExcept .undecodable outcome.failure? with
  | some failure => throw (.toolchain failure)
  | none => pure ()

/-- The path of the compiled module. -/
def compile (machine : Machine) (request : CompileRequest) : Toolchain → Action Path
  | prebuilt artifact => found request artifact
  | command words artifact => do
    runCommand machine request words
    found request artifact

end Toolchain

end ModulePackaging
