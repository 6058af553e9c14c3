import ModulePackaging.Text.Blank
import ModulePackaging.Text.Lowercase

/-!
# Hosts

The simulator runs on two platforms and loads modules from a directory named for the platform. A
host triple such as `x86_64-unknown-linux-gnu` names the platform by its parts.
-/

namespace ModulePackaging

/-- A platform that the simulator runs on. -/
inductive Host
  | linux64
  | win64
  deriving DecidableEq

/-- Why a triple names no host. -/
inductive HostError
  | empty
  | architecture (part : Text)
  | system (triple : Text)

/-- The refusal in words. -/
def HostError.message : HostError → Text
  | .empty => "host triple must be non-empty"
  | .architecture part =>
    "unsupported host architecture '" ++ part ++ "' (simulator hosts are 64-bit x86)"
  | .system triple => "unsupported host operating system in '" ++ triple ++ "'"

namespace Host

/-- The name of the platform and of its directory. -/
def key : Host → Text
  | linux64 => "linux64"
  | win64 => "win64"

/-- The suffix of a dynamic library. -/
def librarySuffix : Host → Text
  | linux64 => ".so"
  | win64 => ".dll"

/-- The file name of a module's library. -/
def libraryFilename (host : Host) (module : Text) : Text := module ++ host.librarySuffix

/-- The names of the one architecture that is supported. -/
def architectures : List Text := ["x86_64", "amd64"]

/-- The parts of a triple, in lower case. -/
def tripleParts (triple : Text) : List Text :=
  (triple.trimmed.lowercase.splitOn '-').filter (!·.isEmpty)

/-- The host that a triple names. -/
def ofTriple (triple : Text) : Except HostError Host :=
  match tripleParts triple with
  | [] => .error .empty
  | architecture :: rest =>
    let parts := architecture :: rest
    if architecture ∉ architectures then .error (.architecture architecture)
    else if parts.contains "linux" then .ok .linux64
    else if parts.contains "windows" || parts.contains "win64" then .ok .win64
    else .error (.system triple)

end Host

end ModulePackaging
