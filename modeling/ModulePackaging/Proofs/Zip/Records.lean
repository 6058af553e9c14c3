import Mathlib.Data.List.TakeWhile
import ModulePackaging.Power
import ModulePackaging.Proofs.Encodings
import ModulePackaging.Proofs.Outcomes
import ModulePackaging.Proofs.Utf8
import ModulePackaging.Zip.Reader

/-!
# Records of a container

What the reader finds in the records that the writer makes: each number in its field, the name as it
is stored, and in the directory one entry for each member, at the place where the member stands.
-/

namespace ModulePackaging.Zip

/-! ## Numbers -/

@[simp] theorem length_littleEndian (width n : Nat) : (littleEndian width n).length = width := by
  induction width generalizing n with
  | zero => rfl
  | succ width ih => rw [littleEndian, List.length_cons, ih]

/-- A number that fits into its field is read back. -/
theorem ofLittleEndian_littleEndian {width n : Nat} (fits : n < 256 ^ width) :
    ofLittleEndian (littleEndian width n) = n := by
  induction width generalizing n with
  | zero =>
      have : n = 0 := by simpa using fits
      rw [this]
      rfl
  | succ width ih =>
      have quotient : n / 256 < 256 ^ width := by
        rw [Nat.pow_succ] at fits
        omega
      have byte : n.toUInt8.toNat = n % 256 := by simp
      rw [littleEndian, ofLittleEndian, ih quotient, byte]
      omega

/-! ## Names -/

theorem storedName_storedName (name : Text) : storedName (storedName name) = storedName name :=
  List.takeWhile_idem

/-- A name is stored in full if it has no null character. -/
theorem storedName_eq_self_iff {name : Text} : storedName name = name ↔ 0 ∉ name := by
  unfold storedName
  rw [List.takeWhile_eq_self_iff]
  constructor
  · intro all zero
    exact absurd (all 0 zero) (by decide)
  · intro none c member
    have nonzero : c.val ≠ 0 := by
      intro zero
      have null : c = 0 := Fin.ext zero
      exact none (null ▸ member)
    exact bne_iff_ne.mpr nonzero

/-- A name without null characters has at least as many bytes as code points. -/
theorem length_le_nameBytes {name : Text} (plain : 0 ∉ name) :
    name.length ≤ (nameBytes name).length := by
  rw [nameBytes, storedName_eq_self_iff.mpr plain]
  exact Utf8.length_le_encoded name

theorem isEncodable_storedName {name : Text} (h : name.IsEncodable) :
    (storedName name).IsEncodable :=
  fun c member => h c ((List.takeWhile_subset _) member)

theorem CodePage.point_ascii {c : CodePoint} (low : c.val < 0x80) :
    CodePage.point c.val.toUInt8 = c := by
  have value : c.val.toUInt8.toNat = c.val := Utf8.toNat_toUInt8 (by omega)
  have small : c.val.toUInt8 < 0x80 := by
    rw [UInt8.lt_iff_toNat_lt, value]
    exact low
  rw [CodePage.point, if_pos small, value, CodePoint.ofNat_val]

theorem CodePage.decode_ascii {t : Text} (all : ∀ c ∈ t, c.val < 0x80) :
    CodePage.decode (t.flatMap Utf8.encodePoint) = t := by
  induction t with
  | nil => rfl
  | cons c rest ih =>
      have low := all c List.mem_cons_self
      have others := ih fun d member => all d (List.mem_cons_of_mem _ member)
      rw [List.flatMap_cons, Utf8.encodePoint_ascii low]
      show CodePage.point c.val.toUInt8 :: CodePage.decode (rest.flatMap Utf8.encodePoint) = _
      rw [others, CodePage.point_ascii low]

/-- The stored name is read back, by the encoding that its flags tell. -/
theorem nameText_nameBytes {name : Text} (h : (storedName name).IsEncodable) :
    nameText (nameFlags name) (nameBytes name) = .ok (storedName name) := by
  unfold nameText nameFlags nameBytes
  split
  · rename_i all
    have ascii : ∀ c ∈ storedName name, c.val < 0x80 := by simpa using all
    rw [if_neg (by decide), CodePage.decode_ascii ascii]
  · rw [if_pos (by decide), Utf8.decode_flatMap h]
    rfl

/-- The flags of a member fit into their field. -/
theorem nameFlags_cases (name : Text) : nameFlags name = 0 ∨ nameFlags name = 0x800 := by
  unfold nameFlags
  split
  · exact .inl rfl
  · exact .inr rfl

theorem ofLittleEndian_nameFlags (name : Text) :
    ofLittleEndian (littleEndian 2 (nameFlags name)) = nameFlags name := by
  apply ofLittleEndian_littleEndian
  rcases nameFlags_cases name with flags | flags <;> rw [flags] <;> decide

/-- The flags of a member ask for no patch, no strong encryption and no encryption. -/
theorem unmarked_nameFlags (name : Text) : nameFlags name &&& 0x20 = 0 ∧
    nameFlags name &&& 0x40 = 0 ∧ nameFlags name &&& 0x01 = 0 := by
  rcases nameFlags_cases name with flags | flags <;> rw [flags] <;> decide

/-! ## What the directory says -/

/-- A member whose name and content fit into the fields of its records. -/
structure Member.IsStorable (m : Member) : Prop where
  encodable : (storedName m.name).IsEncodable
  name : (nameBytes m.name).length ≤ nameLimit
  content : m.content.length < wideMark

namespace Member.IsStorable

variable {m : Member}

theorem ofLittleEndian_name (h : m.IsStorable) :
    ofLittleEndian (littleEndian 2 (nameBytes m.name).length) = (nameBytes m.name).length := by
  have named := h.name
  simp only [nameLimit] at named
  exact ofLittleEndian_littleEndian (by omega)

theorem ofLittleEndian_content (h : m.IsStorable) :
    ofLittleEndian (littleEndian 4 m.content.length) = m.content.length := by
  have sized := h.content
  simp only [wideMark] at sized
  exact ofLittleEndian_littleEndian (by omega)

end Member.IsStorable

/-- The entry that the record of a member makes. -/
def entryOf (m : Member) (offset : Nat) : Entry :=
  ⟨storedName m.name, nameFlags m.name, 0, (Crc32.checksum m.content).toNat, m.content.length,
    m.content.length, offset⟩

/-- The entries that the records of members make, the first of which stands at `offset`. -/
def entriesFrom : Nat → List Member → List Entry
  | _, [] => []
  | offset, m :: rest => entryOf m offset :: entriesFrom (offset + (localRecord m).length) rest

/-- The record of a member in the directory, field by field, without the name. -/
def directoryFields (m : Member) (offset : Nat) : Bytes :=
  [directoryMagic, [formatVersion.toUInt8, 3], littleEndian 2 formatVersion,
    littleEndian 2 (nameFlags m.name), littleEndian 2 0, littleEndian 2 0,
    littleEndian 2 fixedDate, littleEndian 4 (Crc32.checksum m.content).toNat,
    littleEndian 4 m.content.length, littleEndian 4 m.content.length,
    littleEndian 2 (nameBytes m.name).length, littleEndian 2 0, littleEndian 2 0, littleEndian 2 0,
    littleEndian 2 0, littleEndian 4 fixedAttributes, littleEndian 4 offset].flatten

theorem directoryRecord_eq (m : Member) (offset : Nat) :
    directoryRecord m offset = directoryFields m offset ++ nameBytes m.name := by
  simp only [directoryRecord, directoryFields, sharedFields, List.flatten_cons, List.flatten_nil,
    List.append_assoc, List.append_nil]

theorem length_directoryFields (m : Member) (offset : Nat) :
    (directoryFields m offset).length = directoryRecordSize := rfl

/-- The record of a member in front of it, field by field, without the name. -/
def localFields (m : Member) : Bytes :=
  [localMagic, littleEndian 2 formatVersion, littleEndian 2 (nameFlags m.name), littleEndian 2 0,
    littleEndian 2 0, littleEndian 2 fixedDate, littleEndian 4 (Crc32.checksum m.content).toNat,
    littleEndian 4 m.content.length, littleEndian 4 m.content.length,
    littleEndian 2 (nameBytes m.name).length, littleEndian 2 0].flatten

theorem localRecord_eq (m : Member) :
    localRecord m = localFields m ++ (nameBytes m.name ++ m.content) := by
  simp only [localRecord, localFields, sharedFields, List.flatten_cons, List.flatten_nil,
    List.append_assoc, List.append_nil]

theorem length_localFields (m : Member) :
    (localFields m).length = Container.localRecordSize := rfl

theorem length_localRecord (m : Member) : (localRecord m).length =
    Container.localRecordSize + (nameBytes m.name).length + m.content.length := by
  rw [localRecord_eq, List.length_append, List.length_append, length_localFields, Nat.add_assoc]

theorem length_directoryRecord (m : Member) (offset : Nat) :
    (directoryRecord m offset).length = directoryRecordSize + (nameBytes m.name).length := by
  rw [directoryRecord_eq, List.length_append, length_directoryFields]

/-- The record of a member in the directory is read as the entry of the member. -/
theorem directoryEntry_directoryRecord {m : Member} (h : m.IsStorable) {offset : Nat}
    (place : offset < wideMark) (rest : Bytes) :
    directoryEntry 0 (directoryRecord m offset ++ rest) =
      .ok (entryOf m offset, (directoryRecord m offset).length) := by
  have front : directoryRecord m offset ++ rest =
      directoryFields m offset ++ (nameBytes m.name ++ rest) := by
    rw [directoryRecord_eq, List.append_assoc]
  have record : (directoryFields m offset ++ (nameBytes m.name ++ rest)).take directoryRecordSize =
      directoryFields m offset := List.take_left' (length_directoryFields m offset)
  have after : (directoryFields m offset ++ (nameBytes m.name ++ rest)).drop directoryRecordSize =
      nameBytes m.name ++ rest := List.drop_left' (length_directoryFields m offset)
  simp only [wideMark] at place
  have flags : numberAt (directoryFields m offset) 8 2 = nameFlags m.name :=
    ofLittleEndian_nameFlags m.name
  have nameLength : numberAt (directoryFields m offset) 28 2 = (nameBytes m.name).length :=
    h.ofLittleEndian_name
  have checksum : numberAt (directoryFields m offset) 16 4 = (Crc32.checksum m.content).toNat := by
    show ofLittleEndian (littleEndian 4 (Crc32.checksum m.content).toNat) = _
    exact ofLittleEndian_littleEndian (Crc32.checksum m.content).toNat_lt
  have packed : numberAt (directoryFields m offset) 20 4 = m.content.length :=
    h.ofLittleEndian_content
  have size : numberAt (directoryFields m offset) 24 4 = m.content.length :=
    h.ofLittleEndian_content
  have stands : numberAt (directoryFields m offset) 42 4 = offset := by
    show ofLittleEndian (littleEndian 4 offset) = _
    exact ofLittleEndian_littleEndian (by omega)
  have extra : numberAt (directoryFields m offset) 30 2 = 0 := rfl
  have comment : numberAt (directoryFields m offset) 32 2 = 0 := rfl
  have version : numberAt (directoryFields m offset) 6 1 = formatVersion := rfl
  have magic : directoryMagic.isPrefixOf (directoryFields m offset) = true := rfl
  have method : numberAt (directoryFields m offset) 10 2 = 0 := rfl
  have name : (nameBytes m.name ++ rest).take (nameBytes m.name).length = nameBytes m.name :=
    List.take_left
  rw [front]
  unfold directoryEntry
  simp only [record, after, length_directoryFields, magic, flags, nameLength, extra, comment,
    version, checksum, packed, size, stands, method, name, nameText_nameBytes h.encodable,
    Nat.lt_irrefl, List.take_zero, List.length_nil, length_directoryRecord, if_false]
  show Except.ok _ = _
  simp only [entryOf, Int.add_zero, Nat.add_zero]

/-- Reading the directory gives the entries of its members. -/
theorem directoryEntries_directory : ∀ (ms : List Member) (offset fuel : Nat),
    (∀ m ∈ ms, m.IsStorable) → offset + (contents ms).length < wideMark →
    (directory offset ms).length < fuel →
    directoryEntries 0 fuel (directory offset ms).length (directory offset ms) =
      .ok (entriesFrom offset ms) := by
  intro ms
  induction ms with
  | nil =>
      intro offset fuel _ _ enough
      cases fuel with
      | zero => exact absurd enough (Nat.not_lt_zero _)
      | succ fuel => rfl
  | cons m rest ih =>
      intro offset fuel storable place enough
      cases fuel with
      | zero => exact absurd enough (Nat.not_lt_zero _)
      | succ fuel =>
          obtain ⟨first, others⟩ := List.forall_mem_cons.mp storable
          have total : (contents (m :: rest)).length =
              (localRecord m).length + (contents rest).length := by
            rw [contents, List.flatMap_cons, List.length_append]
            rfl
          rw [total] at place
          rw [directory, List.length_append] at enough
          rw [directory, directoryEntries, List.length_append,
            directoryEntry_directoryRecord first (by omega)]
          rw [length_directoryRecord] at enough ⊢
          have positive : ¬ directoryRecordSize + (nameBytes m.name).length +
              (directory (offset + (localRecord m).length) rest).length = 0 := by
            rw [directoryRecordSize]
            omega
          rw [if_neg positive]
          -- The rest has its own length left, and fuel for it, as the first record is not empty.
          simp only [bind, Except.bind, Nat.add_sub_cancel_left]
          rw [List.drop_left' (length_directoryRecord m offset),
            ih (offset + (localRecord m).length) fuel others (by omega) (by
              rw [directoryRecordSize] at enough
              omega)]
          rfl

end ModulePackaging.Zip
