import ModulePackaging.Shell.Printing
import ModulePackaging.Shell.Session

/-!
# Commands

The commands that scripts call: those of the shell itself, and the small programs that make, remove
and show files. A command that fails says why and sets a status other than zero.
-/

namespace ModulePackaging.Shell.Utility

/-- Splits arguments into the letters of its options and the rest. -/
def options : List Text → List CodePoint × List Text
  | [] => ([], [])
  | argument :: rest =>
    match argument with
    | sign :: c :: letters =>
      if sign ≠ '-' then ([], argument :: rest)
      else if c = '-' ∧ letters.isEmpty then ([], rest)
      else
        let (others, rest) := options rest
        (c :: letters ++ others, rest)
    | _ => ([], argument :: rest)

/-- A refusal of the file system in words. -/
def reason : Files.Error → Text
  | .refused errno _ | .refusedPair errno _ _ => errno.text
  | e => e.message

/-- The status of a command that failed. -/
def failed : Nat := 1

/-- Says why something that a program does to a path is refused. -/
def refuse (program doing : Text) (p : Text) (e : Files.Error) : Step Unit :=
  Step.failAs program (doing ++ " '" ++ p ++ "': " ++ reason e) failed

/-- Changes the files, or says why that is refused. -/
def change (program doing : Text) (p : Text)
    (step : Files.Tree → Except Files.Error Files.Tree) : Step Unit := do
  match step (← get).files with
  | .ok files => modify fun s => { s with files }
  | .error e => refuse program doing p e

/-- Makes directories. -/
def makeDirectory (arguments : List Text) : Step Unit := do
  let (letters, paths) := options arguments
  let doing : Text := "cannot create directory"
  for p in paths do
    if letters.contains 0x70 then
      let (files, refusal) := (← get).files.makeDirectories p
      modify fun s => { s with files }
      match refusal with
      | some e => refuse "mkdir" doing p e
      | none => pure ()
    else change "mkdir" doing p (·.makeDirectory p)

/-- Removes files, and directories on demand. -/
def remove (arguments : List Text) : Step Unit := do
  let (letters, paths) := options arguments
  let forced := letters.contains 0x66
  let deep := letters.contains 0x72 || letters.contains 0x52
  for p in paths do
    match (← get).files.lookup p with
    | .ok none => if !forced then change "rm" "cannot remove" p (·.remove p)
    | .ok (some .directory) =>
      if deep then change "rm" "cannot remove" p (·.remove p)
      else Step.failAs "rm" ("cannot remove '" ++ p ++ "': Is a directory") failed
    | _ => change "rm" "cannot remove" p (·.remove p)

/-- Makes empty files of those that are not there. -/
def touch (arguments : List Text) : Step Unit := do
  for p in (options arguments).2 do
    change "touch" "cannot touch" p fun files => do
      if ← files.holds p then return files else files.write p [] Files.Tree.defaultMode

/-- The path of a file that goes to a target, which may be a directory. -/
def inTarget (files : Files.Tree) (source target : Path) : Except Files.Error Path := do
  return if ← files.isDirectory target then target / Path.ofText source.name else target

/-- Copies a file. -/
def copy (arguments : List Text) : Step Unit := do
  match (options arguments).2 with
  | [source, target] =>
    match (← get).files.read source with
    | .error e => Step.failAs "cp" ("cannot stat '" ++ source ++ "': " ++ reason e) failed
    | .ok content =>
      change "cp" "cannot create regular file" target fun files => do
        files.write (← inTarget files source target) content Files.Tree.defaultMode
  | _ => Step.failAs "cp" "missing file operand" failed

/-- Moves a file. -/
def move (arguments : List Text) : Step Unit := do
  match (options arguments).2 with
  | [source, target] =>
    change "mv" "cannot stat" source fun files => do
      files.replace source (← inTarget files source target)
  | _ => Step.failAs "mv" "missing file operand" failed

/-- Puts out the content of files, or the input. -/
def concatenate (arguments : List Text) : Step Unit := do
  match (options arguments).2 with
  | [] => Step.put (← get).input
  | paths =>
    for p in paths do
      match (← get).files.read p with
      | .ok content => Step.put content
      | .error e => Step.failAs "cat" (p ++ ": " ++ reason e) failed

/-- Whether a condition holds of arguments; none if they are no condition. -/
def holds? (files : Files.Tree) : List Text → Option Bool
  | [] => some false
  | [t] => some !t.isEmpty
  | [operator, t] =>
    if operator = ("!" : Text) then some t.isEmpty
    else if operator = ("-n" : Text) then some !t.isEmpty
    else if operator = ("-z" : Text) then some t.isEmpty
    else if operator = ("-e" : Text) then some ((files.holds t).toOption.getD false)
    else if operator = ("-f" : Text) then some ((files.isFile t).toOption.getD false)
    else if operator = ("-d" : Text) then some ((files.isDirectory t).toOption.getD false)
    else if operator = ("-s" : Text) then some (((files.read t).toOption.getD []) ≠ [])
    else none
  | [a, operator, b] =>
    let numbers (test : Int → Int → Bool) : Option Bool :=
      match Decimal.whole a, Decimal.whole b with
      | .ok m, .ok n => some (test m n)
      | _, _ => none
    if operator = ("=" : Text) then some (a == b)
    else if operator = ("!=" : Text) then some (a != b)
    else if operator = ("-eq" : Text) then numbers (· == ·)
    else if operator = ("-ne" : Text) then numbers (· != ·)
    else if operator = ("-lt" : Text) then numbers fun m n => decide (m < n)
    else if operator = ("-le" : Text) then numbers fun m n => decide (m ≤ n)
    else if operator = ("-gt" : Text) then numbers fun m n => decide (n < m)
    else if operator = ("-ge" : Text) then numbers fun m n => decide (n ≤ m)
    else if a = ("!" : Text) then (holds? files [operator, b]).map (!·)
    else none
  | a :: rest => if a = ("!" : Text) then (holds? files rest).map (!·) else none

/-- Tests a condition. -/
def test (arguments : List Text) : Step Unit := do
  match holds? (← get).files arguments with
  | some true => Step.setStatus 0
  | some false => Step.setStatus failed
  | none => Step.fail "test: unexpected operator" 2

/-- Puts out whole numbers, one a line. -/
def sequence (arguments : List Text) : Step Unit := do
  let numbers := arguments.map Printing.numberOf
  let (first, last) : Int × Int :=
    match numbers with
    | [n] => (1, n)
    | [m, n] => (m, n)
    | _ => (1, 0)
  for k in List.range (last - first + 1).toNat do
    Step.put (Text.ofInt (first + k) ++ "\n" |>.flatMap Utf8.encodePoint)

/-- The text of the directory that a script is in. -/
def workingDirectory (files : Files.Tree) : Text :=
  [Path.slash] ++ Text.joined [Path.slash] files.home

/-- Goes to another directory. -/
def changeDirectory (arguments : List Text) : Step Unit := do
  let target := (options arguments).2.headD []
  let files := (← get).files
  match files.isDirectory target, files.resolve target with
  | .ok true, .ok location =>
    modify fun s =>
      let files := { s.files with home := location }
      { s.assign "PWD" (workingDirectory files) with files }
  | _, _ => Step.fail ("cd: can't cd to " ++ target) 2

/-- The numbers of signals, by their names. -/
def signals : List (Text × Nat) := [
  ("HUP", 1), ("INT", 2), ("QUIT", 3), ("ILL", 4), ("TRAP", 5), ("ABRT", 6), ("BUS", 7), ("FPE", 8),
  ("KILL", 9), ("USR1", 10), ("SEGV", 11), ("USR2", 12), ("PIPE", 13), ("ALRM", 14), ("TERM", 15)]

/-- The signal that ends a process that is not told which. -/
def terminate : Nat := 15

/-- The number of a signal that is named or numbered. -/
def signalOf? (t : Text) : Option Nat :=
  match signals.lookup (if t.startsWith "SIG" then t.drop 3 else t) with
  | some n => some n
  | none => (Decimal.natural t).toOption

/-- Sends a signal to the script itself; there is no other process. -/
def kill (arguments : List Text) : Step Unit := do
  let (signal?, targets) : Option Nat × List Text :=
    match arguments with
    | [] => (some terminate, [])
    | first :: rest =>
      if first = ("-s" : Text) then (signalOf? (rest.headD []), rest.tail)
      else if first.startsWith "-" then (signalOf? (first.drop 1), rest)
      else (some terminate, first :: rest)
  match signal? with
  | none => Step.fail "kill: invalid signal number or name" 2
  | some signal =>
    if !targets.contains Session.processNumber then Step.fail "kill: No such process" failed
    else if signal = 0 then pure ()
    else throw (.killed signal)

/-- Leaves the script. -/
def leave (arguments : List Text) : Step Unit := do
  match arguments with
  | [] => throw (.exited (← get).status)
  | t :: _ =>
    match Decimal.natural t with
    | .ok n => throw (.exited (n % 256))
    | .error _ => do
      Step.fail ("exit: Illegal number: " ++ t) 2
      throw (.exited 2)

/-- Sets the strict mode, in which a script ends when a command fails. -/
def setMode (arguments : List Text) : Step Unit := do
  for t in arguments do
    if t.startsWith "-" && t.contains 0x65 then modify fun s => { s with strict := true }
    else if t.startsWith "+" && t.contains 0x65 then modify fun s => { s with strict := false }

/-- Sets variables that are exported. -/
def setVariables (arguments : List Text) : Step Unit := do
  for t in arguments do
    let name := t.takeWhile fun c => c ≠ 0x3D
    if name.length < t.length then modify (·.assign name (t.drop (name.length + 1)))

/-- Drops the first arguments of the script. -/
def shift (arguments : List Text) : Step Unit := do
  let count := (Printing.numberOf (arguments.headD "1")).toNat
  modify fun s => { s with arguments := s.arguments.take 1 ++ s.arguments.tail.drop count }

/-- Puts out what a printing command prints. -/
def print (bytes : Bytes) : Step Unit := Step.put bytes

/-- Prints with a format. -/
def printFormat (arguments : List Text) : Step Unit :=
  match arguments with
  | [] => Step.fail "printf: usage: printf format [arg ...]" 2
  | format :: rest => print (Printing.printf format rest)

/-- The commands of the shell itself. -/
def builtins : List (Text × (List Text → Step Unit)) := [
  (":", fun _ => pure ()),
  ("true", fun _ => pure ()),
  ("false", fun _ => Step.setStatus failed),
  ("echo", fun arguments => print (Printing.echo arguments)),
  ("printf", printFormat),
  ("pwd", fun _ => do
    print ((workingDirectory (← get).files ++ "\n").flatMap Utf8.encodePoint)),
  ("test", test),
  ("[", fun arguments =>
    if arguments.getLast? = some "]" then test arguments.dropLast
    else Step.fail "[: missing ]" 2),
  ("cd", changeDirectory),
  ("exit", leave),
  ("set", setMode),
  ("export", setVariables),
  ("shift", shift),
  ("kill", kill)]

/-- The small programs. -/
def programs : List (Text × (List Text → Step Unit)) := [
  ("mkdir", makeDirectory),
  ("rm", remove),
  ("touch", touch),
  ("cp", copy),
  ("mv", move),
  ("cat", concatenate),
  ("seq", sequence),
  ("sleep", fun _ => pure ()),
  ("sync", fun _ => pure ())]

/-- The directories that programs are in. -/
def programDirectories : List Text := ["/bin/", "/usr/bin/"]

/-- The name of a program in one of the directories of programs. -/
def programName? (t : Text) : Option Text :=
  (programDirectories.find? (·.isPrefixOf t)).map fun directory => t.drop directory.length

/-- The names of the builtins that are programs too. -/
def twofold : List Text := ["true", "false", "echo", "printf", "pwd", "test", "[", "kill"]

/-- What a name of a command stands for. -/
def find? (t : Text) : Option (List Text → Step Unit) :=
  match programName? t with
  | some name =>
    (programs.lookup name).orElse fun _ =>
      if twofold.contains name then builtins.lookup name else none
  | none => (builtins.lookup t).orElse fun _ => programs.lookup t

end ModulePackaging.Shell.Utility
