import ModulePackaging.Files.Path
import ModulePackaging.Text.Codec

/-!
# What can go wrong with files

The refusals of the file system, each with its number and the path or the two paths it concerns,
and the paths that name no file at all.
-/

namespace ModulePackaging.Files

/-- A reason for which the file system refuses. -/
inductive Errno
  | notFound
  | permissionDenied
  | taken
  | notDirectory
  | isDirectory
  | nameTooLong
  deriving DecidableEq

namespace Errno

/-- The number of a reason. -/
def number : Errno → Nat
  | notFound => 2
  | permissionDenied => 13
  | taken => 17
  | notDirectory => 20
  | isDirectory => 21
  | nameTooLong => 36

/-- A reason in words. -/
def text : Errno → Text
  | notFound => "No such file or directory"
  | permissionDenied => "Permission denied"
  | taken => "File exists"
  | notDirectory => "Not a directory"
  | isDirectory => "Is a directory"
  | nameTooLong => "File name too long"

/-- The name of the kind of refusal. -/
def kindName : Errno → Text
  | notFound => "FileNotFoundError"
  | permissionDenied => "PermissionError"
  | taken => "FileExistsError"
  | notDirectory => "NotADirectoryError"
  | isDirectory => "IsADirectoryError"
  | nameTooLong => "OSError"

end Errno

/-- Why an operation on files fails. -/
inductive Error
  | refused (errno : Errno) (path : Text)
  | refusedPair (errno : Errno) (source target : Text)
  | nullByte
  | unencodable (e : Unencodable)
  | noName (path : Text)

/-- The failure in words. -/
def Error.message : Error → Text
  | .refused errno path =>
    "[Errno " ++ Text.ofNat errno.number ++ "] " ++ errno.text ++ ": " ++ path.quoted
  | .refusedPair errno source target =>
    "[Errno " ++ Text.ofNat errno.number ++ "] " ++ errno.text ++ ": " ++ source.quoted ++
      " -> " ++ target.quoted
  | .nullByte => "embedded null byte"
  | .unencodable e => e.message
  | .noName path => "PosixPath(" ++ path.quoted ++ ") has an empty name"

end ModulePackaging.Files
