import ModulePackaging.Zip.Format
import ModulePackaging.Zip.Inflate

/-!
# Reading zip containers

A container is read from its end: the last record says where the directory is, and the directory
where each member stands. Bytes in front of the container and a comment behind it are allowed. A
member is given out only when its record agrees with the directory and its content with the check.
-/

namespace ModulePackaging.Zip

/-- What the directory says about a member. -/
structure Entry where
  rawName : Text
  flags : Nat
  method : Nat
  checksum : Nat
  packedSize : Nat
  size : Nat
  offset : Int

namespace Entry

/-- The name of a member: what is listed up to the first null character. -/
def name (entry : Entry) : Text := storedName entry.rawName

end Entry

/-- An open container: its bytes, its members as listed, and where its directory starts. -/
structure Container where
  bytes : Bytes
  entries : List Entry
  directoryStart : Nat

/-- The number in `width` bytes at a place. -/
def numberAt (bytes : Bytes) (place width : Nat) : Nat :=
  ofLittleEndian ((bytes.drop place).take width)

/-- What the record at the end says: size and place of the directory, where the record stands, and
whether a wide record stands in front of it. -/
structure EndInfo where
  size : Nat
  offset : Nat
  place : Nat
  wide : Bool

/-- The size of the record at the end, without a comment. -/
def endSize : Nat := 22

/-- The size of the locator of a wide record. -/
def locatorSize : Nat := 20

/-- The size of a wide record at the end. -/
def wideEndSize : Nat := 56

/-- The longest stretch at the end of a file in which the record is looked for. -/
def commentLimit : Nat := 0x10000

/-- The last place at which the bytes go on with `pattern`, counted from `place`; `found` is the
last one so far. -/
def lastOccurrence? (pattern : Bytes) (place : Nat) (found : Option Nat) : Bytes → Option Nat
  | [] => found
  | b :: rest =>
    lastOccurrence? pattern (place + 1)
      (if pattern.isPrefixOf (b :: rest) then some place else found) rest

/-- Takes size and place of the directory from a wide record, if one is located in front of the
record at the end. -/
def widen (bytes : Bytes) (info : EndInfo) : Except Error EndInfo :=
  if info.place < locatorSize then .ok info
  else
    let locator := (bytes.drop (info.place - locatorSize)).take locatorSize
    if !locatorMagic.isPrefixOf locator then .ok info
    else if numberAt locator 4 4 ≠ 0 ∨ numberAt locator 16 4 > 1 then .error .severalDisks
    else if info.place < locatorSize + wideEndSize then .error .notZip
    else
      let wide := (bytes.drop (info.place - locatorSize - wideEndSize)).take wideEndSize
      if !wideEndMagic.isPrefixOf wide then .ok info
      else .ok ⟨numberAt wide 40 8, numberAt wide 48 8, info.place, true⟩

/-- The record at a place near the end of a file. -/
def endInfoAt (bytes : Bytes) (place : Nat) : Except Error EndInfo :=
  let record := (bytes.drop place).take endSize
  if record.length < endSize then .error .notZip
  else widen bytes ⟨numberAt record 12 4, numberAt record 16 4, place, false⟩

/-- Finds the record at the end: as the last thing in the file, or before a comment. -/
def endInfo (bytes : Bytes) : Except Error EndInfo :=
  let length := bytes.length
  if length < endSize then .error .notZip
  else
    let last := bytes.drop (length - endSize)
    if endMagic.isPrefixOf last && (last.drop 20 == [0, 0]) then
      endInfoAt bytes (length - endSize)
    else
      let start := length - (commentLimit + endSize)
      match lastOccurrence? endMagic start none (bytes.drop start) with
      | none => .error .notZip
      | some place => endInfoAt bytes place

/-- Replaces a value that stands for a wide one by the next eight bytes of the extra field. -/
def wideValue (field : Text) (stands : Bool) (value : Nat) (data : Bytes) :
    Except Error (Nat × Bytes) :=
  if stands then
    if data.length < 8 then .error (.wideField field)
    else .ok (numberAt data 0 8, data.drop 8)
  else .ok (value, data)

/-- The largest number of four bytes, which stands for a wide one. -/
def wideMark : Nat := 0xFFFFFFFF

/-- Sizes and place of a member after the wide values in its extra fields. -/
def wideEntry (entry : Entry) (data : Bytes) : Except Error Entry := do
  let (size, data) ← wideValue "File size"
    (entry.size == wideMark || entry.size == 0xFFFFFFFFFFFFFFFF) entry.size data
  let (packedSize, data) ← wideValue "Compress size" (entry.packedSize == wideMark)
    entry.packedSize data
  let (offset, _) ← wideValue "Header offset" (entry.offset == wideMark) entry.offset.toNat data
  return { entry with size, packedSize, offset }

/-- Reads the extra fields of a member; the fuel bounds their number. -/
def extraFields : Nat → Entry → Bytes → Except Error Entry
  | 0, entry, _ => .ok entry
  | fuel + 1, entry, extra =>
    if extra.length < 4 then .ok entry
    else
      let kind := numberAt extra 0 2
      let size := numberAt extra 2 2
      if size + 4 > extra.length then .error (.extraField kind size)
      else do
        let entry ← if kind = 1 then wideEntry entry ((extra.drop 4).take size) else .ok entry
        extraFields fuel entry (extra.drop (size + 4))

/-- The size of a record of the directory, without the name and what follows it. -/
def directoryRecordSize : Nat := 46

/-- The newest version of the format that is read. -/
def newestVersion : Nat := 63

/-- Whether flags mark a name as UTF-8. -/
def marksUtf8 (flags : Nat) : Bool := flags &&& utf8Flag != 0

/-- The text of a member's name. -/
def nameText (flags : Nat) (bytes : Bytes) : Except Error Text :=
  if marksUtf8 flags then (Utf8.decode bytes).mapError .undecodableName
  else .ok (CodePage.decode bytes)

/-- The entry of a record of the directory, and the length of the record with all that belongs to
it. What stands in front of the container moves every place by `shift`. -/
def directoryEntry (shift : Int) (bytes : Bytes) : Except Error (Entry × Nat) := do
  let record := bytes.take directoryRecordSize
  if record.length < directoryRecordSize then throw .directoryTruncated
  if !directoryMagic.isPrefixOf record then throw .directoryMagic
  let flags := numberAt record 8 2
  let nameLength := numberAt record 28 2
  let extraLength := numberAt record 30 2
  let commentLength := numberAt record 32 2
  let afterRecord := bytes.drop directoryRecordSize
  let rawName ← nameText flags (afterRecord.take nameLength)
  let version := numberAt record 6 1
  if version > newestVersion then throw (.newerVersion version)
  let entry : Entry :=
    ⟨rawName, flags, numberAt record 10 2, numberAt record 16 4, numberAt record 20 4,
      numberAt record 24 4, numberAt record 42 4⟩
  let extra := (afterRecord.drop nameLength).take extraLength
  let entry ← extraFields extra.length entry extra
  return ({ entry with offset := entry.offset + shift },
    directoryRecordSize + nameLength + extraLength + commentLength)

/-- Reads the directory up to its size; the fuel bounds the number of its records. -/
def directoryEntries (shift : Int) : Nat → Nat → Bytes → Except Error (List Entry)
  | 0, _, _ => .ok []
  | fuel + 1, size, bytes =>
    if size = 0 then .ok []
    else do
      let (entry, length) ← directoryEntry shift bytes
      let others ← directoryEntries shift fuel (size - length) (bytes.drop length)
      return entry :: others

/-- Opens a container. -/
def openContainer (bytes : Bytes) : Except Error Container := do
  let info ← endInfo bytes
  let wide := if info.wide then wideEndSize + locatorSize else 0
  if info.place < info.size + wide then throw .directoryOffset
  let start := info.place - info.size - wide
  let entries ← directoryEntries ((start : Int) - info.offset) (info.size + 1) info.size
    ((bytes.drop start).take info.size)
  return ⟨bytes, entries, start⟩

namespace Container

variable (container : Container)

/-- The names of the members, as listed. -/
def names : List Text := container.entries.map Entry.name

/-- The entry of a name; the last one, if several members have the name. -/
def find? (name : Text) : Option Entry :=
  container.entries.reverse.find? fun entry => entry.name == name

/-- The size of a record in front of a member, without the name. -/
def localRecordSize : Nat := 30

/-- The entries by the places of their members, the last member first. -/
def byPlaceDescending : List Entry :=
  sortedBy (fun a b => decide (b.offset ≤ a.offset)) container.entries

/-- For each member the place where the next one starts, or the directory. -/
def withEnds : List (Entry × Int) :=
  let ordered := container.byPlaceDescending
  ordered.zip ((container.directoryStart : Int) :: ordered.map (·.offset))

/-- The place that a member must end before: the next one after it, among those at the same place
the one listed before it. -/
def endOf (name : Text) : Int :=
  match (container.withEnds.filter fun (entry, _) => entry.name == name).getLast? with
  | some (_, place) => place
  | none => container.directoryStart

/-- The content of a stored member. -/
def storedContent (entry : Entry) (data : Bytes) : Except Error Bytes :=
  let packed := data.take entry.packedSize
  let content := packed.take entry.size
  if packed.length < entry.packedSize ∧ packed.length < entry.size then .error .endOfFile
  else if packed.length < entry.packedSize ∧ packed.isEmpty then .error .endOfFile
  else if (Crc32.checksum content).toNat = entry.checksum then .ok content
  else .error (.checksum entry.name)

/-- The content of a compressed member. -/
def packedContent (entry : Entry) (data : Bytes) : Except Error Bytes :=
  let packed := data.take entry.packedSize
  if packed.length < entry.packedSize ∧ packed.isEmpty then .error .endOfFile
  else match Inflate.unpack packed with
    | .error defect => .error (.compressed defect)
    | .ok (unpacked, ended) =>
      let content := unpacked.take entry.size
      if packed.length < entry.packedSize ∧ !ended ∧ content.length < entry.size then
        .error .endOfFile
      else if (Crc32.checksum content).toNat = entry.checksum then .ok content
      else .error (.checksum entry.name)

/-- The content of the member that an entry lists. -/
def contentOf (name : Text) (entry : Entry) : Except Error Bytes := do
  if entry.offset < 0 then throw .negativePosition
  let bytes := container.bytes.drop entry.offset.toNat
  let record := bytes.take localRecordSize
  if record.length < localRecordSize then throw .headerTruncated
  if !localMagic.isPrefixOf record then throw .headerMagic
  let nameLength := numberAt record 26 2
  let skipped := localRecordSize + nameLength + numberAt record 28 2
  let found := (bytes.drop localRecordSize).take nameLength
  if entry.flags &&& 0x20 != 0 then throw .patched
  if entry.flags &&& 0x40 != 0 then throw .stronglyEncrypted
  let foundName ← nameText (numberAt record 6 2) found
  if foundName ≠ entry.rawName then throw (.namesDiffer entry.rawName found)
  let dataPlace := min (entry.offset + skipped) (max entry.offset container.bytes.length)
  if dataPlace + entry.packedSize > container.endOf name then throw (.overlap entry.rawName)
  if entry.flags &&& 0x01 != 0 then throw (.encrypted name)
  let data := bytes.drop skipped
  if entry.method = 0 then storedContent entry data
  else if entry.method = 8 then packedContent entry data
  else throw .method

/-- The content of the member with a name. -/
def read? (name : Text) : Option (Except Error Bytes) :=
  (container.find? name).map (container.contentOf name)

end Container

end ModulePackaging.Zip
