import ModulePackaging.Workspace

/-!
# Stages of a build

A build goes through its stages in order. A fault in a stage ends the build there; it is noted, and
the failed build carries the stage and the fault.
-/

namespace ModulePackaging

/-- A stage of a build. -/
inductive BuildStage
  | resolving
  | matrixCheck
  | compiling
  | signing
  | assembling
  | done
  deriving DecidableEq

namespace BuildStage

/-- The name of a stage. -/
def name : BuildStage → Text
  | resolving => "Resolving"
  | matrixCheck => "MatrixCheck"
  | compiling => "Compiling"
  | signing => "Signing"
  | assembling => "Assembling"
  | done => "Done"

/-- The stage that a build is in before it enters a stage; a build starts in the first one. -/
def before : BuildStage → BuildStage
  | resolving => resolving
  | matrixCheck => resolving
  | compiling => matrixCheck
  | signing => compiling
  | assembling => signing
  | done => assembling

/-- What entering a stage leaves in the log. -/
def entryRecord (label : Text) (stage : BuildStage) : LogRecord :=
  ⟨.debug, "simpack.build", label ++ ": " ++ stage.before.name ++ " -> " ++ stage.name⟩

/-- What a fault in a stage leaves in the log. -/
def faultRecord (label : Text) (stage : BuildStage) (fault : Fault) : LogRecord :=
  ⟨.error, "simpack.build",
    label ++ ": build failed at " ++ stage.name ++ ": " ++ fault.message⟩

/-- The build that a fault ends in a stage. -/
def failed (stage : BuildStage) (fault : Fault) : Fault :=
  .failedBuild { Problem.of .buildFailed fault.message with stage := some stage.name } (some fault)

/-- Enters a stage and does its work. -/
def run {α : Type} (label : Text) (stage : BuildStage) (work : Action α) : Action α := do
  Action.note (stage.entryRecord label)
  tryCatch work fun fault => do
    Action.note (stage.faultRecord label fault)
    throw (stage.failed fault)

end BuildStage

end ModulePackaging
