import ModulePackaging.Text.CodePage
import ModulePackaging.Text.Codec

/-!
# What can be wrong with a zip container

The defects for which a container cannot be opened, and those that show only when a member is read.
-/

namespace ModulePackaging.Zip

/-- Why compressed data cannot be unpacked. -/
inductive InflateDefect
  | blockType
  | storedLengths
  | tooManySymbols
  | codeLengths
  | lengthRepeat
  | missingEnd
  | literalLengths
  | distanceLengths
  | literalCode
  | distanceCode
  | distanceTooFar
  deriving DecidableEq

/-- A defect in words. -/
def InflateDefect.message : InflateDefect → Text
  | .blockType => "invalid block type"
  | .storedLengths => "invalid stored block lengths"
  | .tooManySymbols => "too many length or distance symbols"
  | .codeLengths => "invalid code lengths set"
  | .lengthRepeat => "invalid bit length repeat"
  | .missingEnd => "invalid code -- missing end-of-block"
  | .literalLengths => "invalid literal/lengths set"
  | .distanceLengths => "invalid distances set"
  | .literalCode => "invalid literal/length code"
  | .distanceCode => "invalid distance code"
  | .distanceTooFar => "invalid distance too far back"

/-- Why a container or one of its members cannot be read, or a name cannot be written. -/
inductive Error
  | notZip
  | severalDisks
  | directoryOffset
  | directoryTruncated
  | directoryMagic
  | extraField (kind size : Nat)
  | wideField (field : Text)
  | undecodableName (e : Undecodable)
  | newerVersion (version : Nat)
  | negativePosition
  | headerTruncated
  | headerMagic
  | namesDiffer (listed : Text) (found : Bytes)
  | patched
  | stronglyEncrypted
  | overlap (name : Text)
  | encrypted (name : Text)
  | method
  | checksum (name : Text)
  | endOfFile
  | compressed (defect : InflateDefect)
  | nameTooLong

/-- The defect in words. -/
def Error.message : Error → Text
  | .notZip => "File is not a zip file"
  | .severalDisks => "zipfiles that span multiple disks are not supported"
  | .directoryOffset => "Bad offset for central directory"
  | .directoryTruncated => "Truncated central directory"
  | .directoryMagic => "Bad magic number for central directory"
  | .extraField kind size =>
    "Corrupt extra field " ++ Text.hexDigits 4 kind ++ " (size=" ++ Text.ofNat size ++ ")"
  | .wideField field => "Corrupt zip64 extra field. " ++ field ++ " not found."
  | .undecodableName e => e.message
  | .newerVersion version =>
    "zip file version " ++ Text.ofNat (version / 10) ++ "." ++ Text.ofNat (version % 10)
  | .negativePosition => "[Errno 22] Invalid argument"
  | .headerTruncated => "Truncated file header"
  | .headerMagic => "Bad magic number for file header"
  | .namesDiffer listed found =>
    "File name in directory " ++ listed.quoted ++ " and header " ++ RawBytes.quoted found ++
      " differ."
  | .patched => "compressed patched data (flag bit 5)"
  | .stronglyEncrypted => "strong encryption (flag bit 6)"
  | .overlap name => "Overlapped entries: " ++ name.quoted ++ " (possible zip bomb)"
  | .encrypted name =>
    "File " ++ name.quoted ++ " is encrypted, password required for extraction"
  | .method => "That compression method is not supported"
  | .checksum name => "Bad CRC-32 for file " ++ name.quoted
  | .endOfFile => []
  | .compressed defect => "Error -3 while decompressing data: " ++ defect.message
  | .nameTooLong => "ushort format requires 0 <= number <= 65535"

/-- The kinds that the defects fall into. -/
inductive Error.Kind
  | badContainer
  | undecodable
  | unsupported
  | system
  | locked
  | ended
  | badData
  deriving DecidableEq

/-- The kind of a defect. -/
def Error.kind : Error → Error.Kind
  | .undecodableName _ => .undecodable
  | .newerVersion _ | .patched | .stronglyEncrypted | .method => .unsupported
  | .negativePosition => .system
  | .encrypted _ => .locked
  | .endOfFile => .ended
  | .compressed _ | .nameTooLong => .badData
  | _ => .badContainer

end ModulePackaging.Zip
