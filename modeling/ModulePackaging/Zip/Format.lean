import ModulePackaging.Digest.Crc32
import ModulePackaging.Text.Utf8

/-!
# Writing zip containers

A container is its members one after the other, each behind a record of its own, then a directory
of them, then a record that says where the directory is. Members are stored as they are, and every
field that could depend on the place or the time of writing has a fixed value, so equal members
make equal bytes.
-/

namespace ModulePackaging.Zip

/-- The lowest `width` bytes of a number, the least significant first. -/
def littleEndian : Nat → Nat → Bytes
  | 0, _ => []
  | width + 1, n => n.toUInt8 :: littleEndian width (n / 256)

/-- The number that bytes spell, the least significant first. -/
def ofLittleEndian : Bytes → Nat
  | [] => 0
  | b :: rest => b.toNat + 256 * ofLittleEndian rest

/-- What a record of a member in front of its content starts with. -/
def localMagic : Bytes := [0x50, 0x4B, 0x03, 0x04]

/-- What a record of the directory starts with. -/
def directoryMagic : Bytes := [0x50, 0x4B, 0x01, 0x02]

/-- What the record at the end starts with. -/
def endMagic : Bytes := [0x50, 0x4B, 0x05, 0x06]

/-- What the locator of a wide record starts with. -/
def locatorMagic : Bytes := [0x50, 0x4B, 0x06, 0x07]

/-- What a wide record at the end starts with. -/
def wideEndMagic : Bytes := [0x50, 0x4B, 0x06, 0x06]

/-- A member: its name and its content. -/
structure Member where
  name : Text
  content : Bytes

/-- The flag that marks a name as UTF-8. -/
def utf8Flag : Nat := 0x800

/-- The version of the format that reading needs, and that writing followed. -/
def formatVersion : Nat := 20

/-- The first day of the calendar of archives. -/
def fixedDate : Nat := 0x21

/-- The attributes of a plain file that its owner may write. -/
def fixedAttributes : Nat := 0o644 * 0x10000

/-- A name as it is written: up to the first null character. -/
def storedName (name : Text) : Text := name.takeWhile (·.val != 0)

/-- The bytes of a name. -/
def nameBytes (name : Text) : Bytes := (storedName name).flatMap Utf8.encodePoint

/-- The most bytes that a name may have. -/
def nameLimit : Nat := 0xFFFF

/-- Whether the name of a member has more bytes than its records can tell. -/
def Member.isLongNamed (m : Member) : Bool := nameLimit < (nameBytes m.name).length

/-- The flags of a member with a name. -/
def nameFlags (name : Text) : Nat :=
  if (storedName name).all (·.val < 0x80) then 0 else utf8Flag

/-- The fields that the two records of a member share. -/
def sharedFields (m : Member) : Bytes :=
  littleEndian 2 (nameFlags m.name) ++ littleEndian 2 0 ++ littleEndian 2 0 ++
    littleEndian 2 fixedDate ++ littleEndian 4 (Crc32.checksum m.content).toNat ++
    littleEndian 4 m.content.length ++ littleEndian 4 m.content.length ++
    littleEndian 2 (nameBytes m.name).length ++ littleEndian 2 0

/-- A member behind its record. -/
def localRecord (m : Member) : Bytes :=
  localMagic ++ littleEndian 2 formatVersion ++ sharedFields m ++ nameBytes m.name ++ m.content

/-- The record of a member in the directory; the member stands at `offset`. -/
def directoryRecord (m : Member) (offset : Nat) : Bytes :=
  directoryMagic ++ [formatVersion.toUInt8, 3] ++ littleEndian 2 formatVersion ++ sharedFields m ++
    littleEndian 2 0 ++ littleEndian 2 0 ++ littleEndian 2 0 ++ littleEndian 4 fixedAttributes ++
    littleEndian 4 offset ++ nameBytes m.name

/-- All members behind their records. -/
def contents (members : List Member) : Bytes := members.flatMap localRecord

/-- The directory of members of which the first stands at `offset`. -/
def directory : Nat → List Member → Bytes
  | _, [] => []
  | offset, m :: rest =>
    directoryRecord m offset ++ directory (offset + (localRecord m).length) rest

/-- The record at the end: how many members there are, and size and place of the directory. -/
def endRecord (count size offset : Nat) : Bytes :=
  endMagic ++ littleEndian 2 0 ++ littleEndian 2 0 ++ littleEndian 2 count ++
    littleEndian 2 count ++ littleEndian 4 size ++ littleEndian 4 offset ++ littleEndian 2 0

/-- The container of the members. -/
def write (members : List Member) : Bytes :=
  let front := contents members
  let listing := directory 0 members
  front ++ listing ++ endRecord members.length listing.length front.length

end ModulePackaging.Zip
