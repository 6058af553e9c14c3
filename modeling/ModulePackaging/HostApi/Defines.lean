import ModulePackaging.HostApi.Entry

/-!
# Defines for conditional compilation

The defines that a module is compiled with for one version of the host: three for the version, then
one for each flag in the order of the flags.
-/

namespace ModulePackaging

/-- A flag as part of a define: letters in capitals and digits, all else as `_`. -/
def defineToken (t : Text) : Text :=
  t.map fun c => if c.isAsciiLetter || c.isAsciiDigit then c.asciiUpper else 0x5F

/-- The defines of an entry. -/
def compileDefines (entry : ApiEntry) : List Text :=
  let v := entry.version
  let major := Text.ofNat v.major
  let all := major ++ "_" ++ Text.ofNat v.minor ++ "_" ++ Text.ofNat v.patch
  [("SIMPACK_HOST_API_" ++ all : Text), "SIMPACK_HOST_API_MAJOR_" ++ major,
    "SIMPACK_HOST_API_VERSION=\"" ++ v.coreText ++ "\""] ++
    entry.flags.map fun flag => ("SIMPACK_FEATURE_" ++ defineToken flag : Text)

end ModulePackaging
