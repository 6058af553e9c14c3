import ModulePackaging.Archive.Basic
import ModulePackaging.Workspace

/-!
# Committing archives

Puts an archive into a file, all or nothing: it is written in a staging directory beside the file
and moved into place when it is complete, and the staging directory goes in any case. Without leave
to overwrite, a file that is there stays as it is.
-/

namespace ModulePackaging.Archive

/-- What the name of a staging directory starts with. -/
def stagingStart : Text := ".simpack-stage-"

/-- The refusal to overwrite a file. -/
def collision (p : Path) : Fault :=
  .problem (.atPath .collision "output archive already exists" p.toText)

/-- Runs an operation and then a last one, whether or not the first one ends early. -/
def finishing {α : Type} (body : Action α) (last : Action Unit) : Action α :=
  ExceptT.mk do
    let result ← body.run
    let _ ← last.run
    return result

/-- Writes an archive in the staging directory and moves it into place. -/
def stageAndMove (archive : Archive) (stage out : Path) (overwrite : Bool) : Action Unit := do
  let staged := stage / Path.ofText out.name
  -- The file is opened before its members are laid out.
  Action.writeFile staged []
  let bytes ← Action.ofExcept id archive.toBytes
  Action.writeFile staged bytes
  if overwrite then Action.change (·.replace staged out)
  else
    match (← get).files.link staged out with
    | .ok files => modify fun w => { w with files }
    | .error (.refusedPair .taken _ _) => throw (collision out)
    | .error e => throw (.files e)

/-- What committing an archive leaves in the log. -/
def commitRecord (out : Path) (size : Nat) : LogRecord :=
  ⟨.info, "simpack.archive_v1", "wrote " ++ out.toText ++ " (" ++ Text.ofNat size ++ " bytes)"⟩

/-- Commits an archive to a file. -/
def commit (archive : Archive) (out : Path) (overwrite : Bool) : Action Unit := do
  Action.makeDirectories out.parent
  if !overwrite then
    if ← Action.ask (·.holds out) then throw (collision out)
  let stage := out.parent / Path.ofText (stagingStart ++ (← get).mark)
  Action.change (·.makeDirectory stage)
  finishing (stageAndMove archive stage out overwrite) (Action.change (·.remove stage))
  let bytes ← Action.ask (·.read out)
  Action.note (commitRecord out bytes.length)

end ModulePackaging.Archive
