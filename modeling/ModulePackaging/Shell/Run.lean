import ModulePackaging.Shell.Grammar
import ModulePackaging.Shell.Utility
import ModulePackaging.Toolchain

/-!
# Running shell scripts

Runs scripts over the files, and with them the commands that toolchains are made of. The machine
knows the shell and a few small programs; any other program is missing.
-/

namespace ModulePackaging.Shell

namespace Redirection

/-- Why a redirection is refused. -/
def refusal (doing : Text) (p : Text) : Files.Error → Text
  | .refused .notFound _ =>
    if doing = ("create" : Text) then "cannot create " ++ p ++ ": Directory nonexistent"
    else "cannot " ++ doing ++ " " ++ p ++ ": No such file"
  | e => "cannot " ++ doing ++ " " ++ p ++ ": " ++ Utility.reason e

/-- Sends a stream to a sink. -/
def sendTo (stream : Nat) (sink : Sink) : Step Unit :=
  modify fun s =>
    if stream = 1 then { s with outputSink := sink }
    else if stream = 2 then { s with errorSink := sink }
    else s

/-- The sink of a path that is no file. -/
def device? (p : Text) : Option Sink :=
  if p = ("/dev/null" : Text) then some .nowhere
  else if p = ("/dev/stdout" : Text) then some .output
  else if p = ("/dev/stderr" : Text) then some .errors
  else none

/-- Sends a stream to a file, which is emptied unless it is to be continued. -/
def sendToFile (stream : Nat) (p : Text) (continued : Bool) : Step (Option Text) := do
  let files := (← get).files
  let opened : Except Files.Error (Files.Tree × Files.Location) := do
    let content ← if continued && (← files.isFile p) then files.read p else pure []
    let files ← files.write p content Files.Tree.defaultMode
    return (files, ← files.resolve p)
  match device? p, opened with
  | some sink, _ => do
    sendTo stream sink
    return none
  | none, .error e => return some (refusal "create" p e)
  | none, .ok (files, location) => do
    modify fun s => { s with files }
    sendTo stream (.file location)
    return none

/-- Performs a redirection; the refusal if it cannot be performed. -/
def perform (r : Redirection) : Step (Option Text) := do
  let s ← get
  match r.channel with
  | .intoFile w => sendToFile r.stream (s.textOf w) false
  | .atEndOf w => sendToFile r.stream (s.textOf w) true
  | .fromFile w =>
    let p := s.textOf w
    match if p = ("/dev/null" : Text) then .ok [] else s.files.read p with
    | .ok input => do
      set { s with input }
      return none
    | .error e => return some (refusal "open" p e)
  | .like w =>
    let stream := s.textOf w
    if stream = ("1" : Text) then do
      sendTo r.stream s.outputSink
      return none
    else if stream = ("2" : Text) then do
      sendTo r.stream s.errorSink
      return none
    else if stream = ("-" : Text) then do
      sendTo r.stream .nowhere
      return none
    else return some (stream ++ ": Bad file descriptor")

/-- Performs redirections up to the first that is refused. -/
def performAll : List Redirection → Step (Option Text)
  | [] => return none
  | r :: rest => do
    match ← r.perform with
    | some refused => return some refused
    | none => performAll rest

/-- The status of a command whose redirection is refused. -/
def refusedStatus : Nat := 2

/-- Runs a step with redirections, which end with it. -/
def around (redirections : List Redirection) (body : Step Unit) : Step Unit := do
  let before ← get
  match ← performAll redirections with
  | none => body
  | some refused => Step.fail refused refusedStatus
  modify fun s => { s with
    input := before.input, outputSink := before.outputSink, errorSink := before.errorSink }

end Redirection

/-- The command that leaves a script, by default with the status of the command before it. -/
def leaveName : Text := "exit"

/-- Runs the command that has a name. -/
def runNamed (name : Text) (arguments : List Text) : Step Unit := do
  match Utility.find? name with
  | some command => do
    if name ≠ leaveName then Step.setStatus 0
    command arguments
  | none =>
    if name.contains Path.slash then
      match (← get).files.lookup name with
      | .ok (some _) => Step.fail (name ++ ": Permission denied") 126
      | _ => Step.fail (name ++ ": not found") 127
    else Step.fail (name ++ ": not found") 127

/-- Sets variables one after the other. -/
def assignAll (assignments : List (Text × Word)) : Step Unit := do
  for (name, w) in assignments do
    modify fun s => s.assign name (s.textOf w)

/-- Runs a simple command. -/
def runSimple (assignments : List (Text × Word)) (words : List Word)
    (redirections : List Redirection) : Step Unit := do
  let fields := words.flatMap (← get).fieldsOf
  match fields with
  | [] => Redirection.around redirections do
    Step.setStatus 0
    assignAll assignments
  | name :: arguments => do
    let before := (← get).bindings
    Redirection.around redirections do
      assignAll assignments
      runNamed name arguments
    if !assignments.isEmpty then modify fun s => { s with bindings := before }

/-- Ends a strict script whose last command failed, unless that is tested. -/
def checkStrict (tested : Bool) : Step Unit := do
  let s ← get
  if s.strict && !tested && s.status != 0 then throw (.exited s.status)

/-- Runs a script apart from the one around it, which only sees its files, its output and its
status. -/
def runApart (body : Step Unit) : Step Unit := do
  let before ← get
  let (ended, after) := (ExceptT.run body).run before
  let status : Nat :=
    match ended with
    | .error (.exited status) => status
    | _ => after.status
  set { after with
    files := { after.files with home := before.files.home }
    bindings := before.bindings, arguments := before.arguments, strict := before.strict
    outputSink := before.outputSink, errorSink := before.errorSink, input := before.input, status }
  match ended with
  | .error (.killed signal) => throw (.killed signal)
  | _ => pure ()

/-- Runs two scripts apart, the second of them on what the first one puts out. -/
def runPipe (first second : Step Unit) : Step Unit := do
  let before ← get
  set { before with output := [], outputSink := .output }
  runApart first
  let between ← get
  set { between with
    output := before.output, outputSink := before.outputSink, input := between.output }
  runApart second
  modify fun s => { s with input := before.input }

/-- Runs a script. In a script that is tested, commands may fail. -/
def Script.run (tested : Bool) : Script → Step Unit
  | nothing => pure ()
  | simple assignments words redirections => do
    runSimple assignments words redirections
    checkStrict tested
  | sequence first second => do
    first.run tested
    second.run tested
  | both first second => do
    first.run true
    if (← get).status = 0 then second.run tested
  | either first second => do
    first.run true
    if (← get).status ≠ 0 then second.run tested
  | inverse body => do
    body.run true
    Step.setStatus (if (← get).status = 0 then 1 else 0)
  | pipe first second => runPipe (first.run tested) (second.run tested)
  | choice condition yes no => do
    condition.run true
    if (← get).status = 0 then yes.run tested
    else do
      Step.setStatus 0
      no.run tested
  | each name words body => do
    let fields := words.flatMap (← get).fieldsOf
    Step.setStatus 0
    for t in fields do
      modify (·.assign name t)
      body.run tested
  | group body apart redirections =>
    Redirection.around redirections (if apart then runApart (body.run tested) else body.run tested)

/-- Runs the script of a text; a text that is none ends with a complaint. -/
def runText (t : Text) : Step Unit := do
  match Script.ofText t with
  | .ok script => script.run false
  | .error e => Step.fail e.message 2

/-- What a shell is called with: its options, and then a script or the file of one. -/
def runShell (arguments : List Text) : Step Unit := do
  let (letters, rest) := Utility.options arguments
  if letters.contains 0x65 then modify fun s => { s with strict := true }
  if letters.contains 0x63 then
    match rest with
    | [] => Step.fail "-c requires an argument" 2
    | script :: arguments => do
      modify fun s => { s with arguments := if arguments.isEmpty then ["sh"] else arguments }
      runText script
  else match rest with
    | [] => pure ()
    | file :: _ =>
      match (← get).files.read file with
      | .error _ => do
        Step.complain ("sh: 0: cannot open " ++ file ++ ": No such file")
        Step.setStatus 2
      | .ok content => do
        modify fun s => { s with arguments := rest }
        runText ((Utf8.decode content).toOption.getD [])

/-- How a step ends a command. -/
def outcomeOf (ended : Except Ending Unit) (s : Session) : Outcome :=
  match ended with
  | .ok () => ⟨s.status, s.output, s.errors⟩
  | .error (.exited status) => ⟨status, s.output, s.errors⟩
  | .error (.killed signal) => ⟨-signal, s.output, s.errors⟩

/-- The session that a command starts in. -/
def startSession (invocation : Invocation) (files : Files.Tree) : Session where
  files := files
  bindings := ("PWD", Utility.workingDirectory files) :: invocation.bindings
  arguments := [invocation.program]
  status := 0
  input := []
  output := []
  errors := []
  outputSink := .output
  errorSink := .errors
  strict := false

/-- Runs a step as a command in its directory. -/
def runAs (invocation : Invocation) (files : Files.Tree) (step : Step Unit) :
    Except Files.Error (Outcome × Files.Tree) := do
  let location ← files.resolve invocation.directory
  let (ended, s) :=
    (ExceptT.run step).run (startSession invocation { files with home := location })
  return (outcomeOf ended s, { s.files with home := files.home })

/-- The names of the shell. -/
def shellNames : List Text := ["sh", "/bin/sh", "/usr/bin/sh", "dash", "/bin/dash", "/usr/bin/dash"]

/-- The program that a name stands for, outside of scripts. -/
def program? (name : Text) : Option (List Text → Step Unit) :=
  if shellNames.contains name then some runShell
  else match Utility.programName? name with
    | some _ => Utility.find? name
    | none => Utility.find? ("/bin/" ++ name)

/-- Why a program that is not known does not start. -/
def startError (invocation : Invocation) (files : Files.Tree) : Files.Error :=
  let name := invocation.program
  if name.isEmpty then .refused .permissionDenied name
  else if name.contains Path.slash then
    match files.locate (invocation.directory / Path.ofText name) with
    | .ok (.ok location) =>
      if (files.node? location).isSome then .refused .permissionDenied name
      else .refused .notFound name
    | .ok (.error errno) => .refused errno name
    | .error e => e
  else .refused .notFound name

/-- Checks that texts can be handed to a program. -/
def checkTexts (texts : List Text) : Except Files.Error Unit := do
  for t in texts do
    match Utf8.encode t with
    | .ok _ => pure ()
    | .error e => throw (.unencodable e)
  if texts.any (·.contains 0) then throw .nullByte

/-- The machine that runs the commands of toolchains. -/
def machine : Machine := fun invocation files => do
  checkTexts (invocation.bindings.map Prod.snd ++ invocation.program :: invocation.arguments)
  match program? invocation.program with
  | none => throw (startError invocation files)
  | some program => runAs invocation files do
    Step.setStatus 0
    program invocation.arguments

end ModulePackaging.Shell
