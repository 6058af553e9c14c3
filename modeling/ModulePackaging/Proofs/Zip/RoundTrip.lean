import Mathlib.Data.List.Induction
import Mathlib.Data.List.Nodup
import ModulePackaging.Proofs.Sorting
import ModulePackaging.Proofs.Zip.Records

/-!
# Containers are read back

Opening a container that was written gives the entries of its members in their order, and reading a
member by its name gives its content, as long as no two members have the same name. One kind of
container is refused: the one in which the bytes in front of the record at the end look like the
locator of a wide record.
-/

namespace ModulePackaging.Zip

/-- What the writer makes without the wide forms of the format: few members, each well below the
largest number of a field, and neither the members nor their directory longer than the wide forms
begin at. -/
structure IsNarrow (ms : List Member) : Prop where
  count : ms.length ≤ 0xFFFF
  members : ∀ m ∈ ms, m.content.length * 21 ≤ 0x7FFFFFFF * 20
  contents : (contents ms).length ≤ 0x7FFFFFFF
  directory : (directory 0 ms).length ≤ 0x7FFFFFFF

instance (ms : List Member) : Decidable (IsNarrow ms) :=
  decidable_of_iff (ms.length ≤ 0xFFFF ∧ (∀ m ∈ ms, m.content.length * 21 ≤ 0x7FFFFFFF * 20) ∧
      (contents ms).length ≤ 0x7FFFFFFF ∧ (directory 0 ms).length ≤ 0x7FFFFFFF)
    ⟨fun ⟨count, members, contents, directory⟩ => ⟨count, members, contents, directory⟩,
      fun h => ⟨h.count, h.members, h.contents, h.directory⟩⟩

/-- Whether the bytes in front of the record at the end start as the locator of a wide record. -/
def seemsWide (bytes : Bytes) : Bool :=
  locatorMagic.isPrefixOf ((bytes.drop (bytes.length - (endSize + locatorSize))).take locatorSize)

/-! ## The end of a container -/

theorem encodePoint_nonzero {c : CodePoint} (h : c.val ≠ 0) :
    ∀ b ∈ Utf8.encodePoint c, b.toNat ≠ 0 := by
  intro b member
  by_cases low : c.val < 0x80
  · rw [Utf8.encodePoint_ascii low, List.mem_singleton] at member
    rw [member, Utf8.toNat_toUInt8 (by omega)]
    exact h
  · have high := Utf8.encodePoint_high (by omega) b member
    omega

/-- A stored name has no null bytes. -/
theorem nameBytes_nonzero (name : Text) : ∀ b ∈ nameBytes name, b.toNat ≠ 0 := by
  intro b member
  obtain ⟨c, inName, inPoint⟩ := List.mem_flatMap.mp member
  exact encodePoint_nonzero (by simpa using List.mem_takeWhile_imp inName) b inPoint

/-- Four bytes of which the last one is not null spell a number past one. -/
theorem one_lt_ofLittleEndian {tail : Bytes} (four : tail.length = 4)
    (nonzero : ∀ b ∈ tail, b.toNat ≠ 0) : 1 < ofLittleEndian tail := by
  match tail, four with
  | [a, b, c, d], _ =>
      have last : d.toNat ≠ 0 := nonzero d (by simp)
      simp only [ofLittleEndian]
      omega

theorem contents_append (ms rest : List Member) :
    contents (ms ++ rest) = contents ms ++ contents rest := List.flatMap_append

theorem directory_append (offset : Nat) (ms rest : List Member) :
    directory offset (ms ++ rest) =
      directory offset ms ++ directory (offset + (contents ms).length) rest := by
  induction ms generalizing offset with
  | nil => rfl
  | cons m others ih =>
      have total : (contents (m :: others)).length =
          (localRecord m).length + (contents others).length := List.length_append
      rw [List.cons_append, directory, directory, ih, total, List.append_assoc, Nat.add_assoc]

/-- The directory ends with the name of the last member. -/
theorem directory_concat (ms : List Member) (m : Member) :
    directory 0 (ms ++ [m]) = directory 0 ms ++ directoryFields m (contents ms).length ++
      nameBytes m.name := by
  rw [directory_append, Nat.zero_add, directory, directory, List.append_nil, directoryRecord_eq,
    List.append_assoc]

/-- The record at the end, field by field. -/
def endFields (count size offset : Nat) : Bytes :=
  [endMagic, littleEndian 2 0, littleEndian 2 0, littleEndian 2 count, littleEndian 2 count,
    littleEndian 4 size, littleEndian 4 offset, littleEndian 2 0].flatten

theorem endRecord_eq (count size offset : Nat) :
    endRecord count size offset = endFields count size offset := by
  simp only [endRecord, endFields, List.flatten_cons, List.flatten_nil, List.append_assoc,
    List.append_nil]

theorem length_endRecord (count size offset : Nat) :
    (endRecord count size offset).length = endSize := by
  rw [endRecord_eq]
  rfl

/-- Bytes behind a part, counted from their end. -/
theorem drop_length_sub {front back : Bytes} {n : Nat} (h : back.length = n) :
    (front ++ back).drop ((front ++ back).length - n) = back := by
  rw [List.length_append, h, Nat.add_sub_cancel, List.drop_left]

/-- A wide record that seems to be located in front of the end is refused, as the name of the last
member stands where the number of disks would. -/
theorem widen_of_tail {front tail back : Bytes} {info : EndInfo}
    (place : info.place = (front ++ tail).length) (four : tail.length = 4)
    (long : 16 ≤ front.length) (nonzero : ∀ b ∈ tail, b.toNat ≠ 0) :
    widen (front ++ tail ++ back) info =
      if locatorMagic.isPrefixOf
          (((front ++ tail ++ back).drop (info.place - locatorSize)).take locatorSize) then
        .error .severalDisks
      else .ok info := by
  have lead : front = front.take (front.length - 16) ++ front.drop (front.length - 16) :=
    (List.take_append_drop _ _).symm
  have sixteen : (front.drop (front.length - 16)).length = 16 := by
    rw [List.length_drop]
    omega
  have total : (front ++ tail).length = front.length + 4 := by
    rw [List.length_append, four]
  -- The locator would be the twenty bytes in front of the end, and its last number that of disks.
  have locator : ((front ++ tail ++ back).drop (info.place - locatorSize)).take locatorSize =
      front.drop (front.length - 16) ++ tail := by
    have start : info.place - locatorSize = (front.take (front.length - 16)).length := by
      rw [place, total, locatorSize, List.length_take]
      omega
    have split : front ++ tail ++ back = front.take (front.length - 16) ++
        (front.drop (front.length - 16) ++ tail ++ back) := by
      simp only [← List.append_assoc, List.take_append_drop]
    rw [split, start, List.drop_left, List.take_left']
    rw [List.length_append, sixteen, four]
    rfl
  have disks : 1 < numberAt (front.drop (front.length - 16) ++ tail) 16 4 := by
    rw [numberAt, List.drop_left' sixteen, List.take_of_length_le (by omega)]
    exact one_lt_ofLittleEndian four nonzero
  unfold widen
  rw [if_neg (by rw [place, total, locatorSize]; omega)]
  simp only [locator]
  split
  · rename_i other
    rw [if_neg (by simpa only [Bool.not_eq_true, Bool.not_eq_true'] using other)]
  · rename_i same
    rw [if_pos (.inr disks), if_pos (by simpa only [Bool.not_eq_true', Bool.not_eq_false] using same)]

/-- In front of the record at the end stand the last four bytes of a name. -/
theorem exists_tail {ms : List Member} (some : ms ≠ [])
    (named : ∀ m ∈ ms, 4 ≤ (nameBytes m.name).length) :
    ∃ front tail, contents ms ++ directory 0 ms = front ++ tail ∧ tail.length = 4 ∧
      16 ≤ front.length ∧ ∀ b ∈ tail, b.toNat ≠ 0 := by
  obtain ⟨others, m, rfl⟩ : ∃ others m, ms = others ++ [m] :=
    ⟨ms.dropLast, ms.getLast some, (List.dropLast_append_getLast some).symm⟩
  have enough := named m (by simp)
  refine ⟨contents (others ++ [m]) ++ (directory 0 others ++
      directoryFields m (contents others).length ++
      (nameBytes m.name).take ((nameBytes m.name).length - 4)),
    (nameBytes m.name).drop ((nameBytes m.name).length - 4), ?_, ?_, ?_, ?_⟩
  · rw [directory_concat]
    simp only [List.append_assoc, List.take_append_drop]
  · rw [List.length_drop]
    omega
  · simp only [List.length_append, length_directoryFields, directoryRecordSize]
    omega
  · intro b member
    exact nameBytes_nonzero m.name b (List.mem_of_mem_drop member)

/-- The record at the end is found by its mark, and tells the size of the directory and where it
starts. -/
theorem numbers_endRecord (count : Nat) {size offset : Nat} (small : size < 256 ^ 4)
    (near : offset < 256 ^ 4) :
    (endMagic.isPrefixOf (endRecord count size offset) &&
      ((endRecord count size offset).drop 20 == [0, 0])) = true ∧
    numberAt (endRecord count size offset) 12 4 = size ∧
    numberAt (endRecord count size offset) 16 4 = offset := by
  rw [endRecord_eq]
  exact ⟨rfl, ofLittleEndian_littleEndian small, ofLittleEndian_littleEndian near⟩

/-- Where the end of a container that was written leads: to its directory, or to a refusal if it
seems to be a wide one. -/
theorem endInfo_write {ms : List Member} (narrow : IsNarrow ms) (some : ms ≠ [])
    (named : ∀ m ∈ ms, 4 ≤ (nameBytes m.name).length) :
    endInfo (write ms) =
      if seemsWide (write ms) then .error .severalDisks
      else .ok ⟨(directory 0 ms).length, (contents ms).length,
        (contents ms ++ directory 0 ms).length, false⟩ := by
  obtain ⟨front, tail, split, four, long, nonzero⟩ := exists_tail some named
  obtain ⟨last, written⟩ : ∃ last, last = endRecord ms.length (directory 0 ms).length
      (contents ms).length := ⟨_, rfl⟩
  have lastLength : last.length = endSize := by
    rw [written]
    exact length_endRecord _ _ _
  have form : write ms = front ++ tail ++ last := by
    rw [write, written, ← split]
  have total : (write ms).length = (front ++ tail).length + endSize := by
    rw [form, List.length_append, lastLength]
  have found : (write ms).drop ((write ms).length - endSize) = last := by
    rw [form]
    exact drop_length_sub lastLength
  have small := narrow.directory
  have near := narrow.contents
  obtain ⟨magic, size, offset⟩ := numbers_endRecord ms.length
    (show (directory 0 ms).length < 256 ^ 4 by omega) (show (contents ms).length < 256 ^ 4 by omega)
  rw [← written] at magic size offset
  have place : (write ms).length - endSize = (front ++ tail).length := by
    rw [total, Nat.add_sub_cancel]
  have before : (write ms).length - (endSize + locatorSize) =
      (front ++ tail).length - locatorSize := by
    rw [total]
    omega
  unfold endInfo
  simp only [found, magic, if_true]
  rw [if_neg (by rw [total]; omega)]
  unfold endInfoAt
  simp only [found, List.take_of_length_le (Nat.le_of_eq lastLength), lastLength, Nat.lt_irrefl,
    if_false, size, offset]
  rw [place, form, widen_of_tail rfl four long nonzero, ← form, seemsWide, before, split]

/-! ## Opening -/

/-- A container that was written, when it is open. -/
def opened (ms : List Member) : Container :=
  ⟨write ms, entriesFrom 0 ms, (contents ms).length⟩

/-- A container that was written opens, unless it seems to be a wide one. -/
theorem openContainer_write {ms : List Member} (narrow : IsNarrow ms) (some : ms ≠ [])
    (named : ∀ m ∈ ms, 4 ≤ (nameBytes m.name).length) (storable : ∀ m ∈ ms, m.IsStorable) :
    openContainer (write ms) =
      if seemsWide (write ms) then .error .severalDisks else .ok (opened ms) := by
  have listing : ((write ms).drop (contents ms).length).take (directory 0 ms).length =
      directory 0 ms := by
    rw [write, List.append_assoc, List.drop_left, List.take_left]
  have place : (contents ms ++ directory 0 ms).length =
      (contents ms).length + (directory 0 ms).length := List.length_append
  have short := narrow.contents
  unfold openContainer
  rw [endInfo_write narrow some named]
  split
  · rfl
  · show (do
      if (contents ms ++ directory 0 ms).length < (directory 0 ms).length + 0 then
        throw Error.directoryOffset
      let start := (contents ms ++ directory 0 ms).length - (directory 0 ms).length - 0
      let entries ← directoryEntries ((start : Int) - ((contents ms).length : Nat))
        ((directory 0 ms).length + 1) (directory 0 ms).length
        (((write ms).drop start).take (directory 0 ms).length)
      return (⟨write ms, entries, start⟩ : Container)) = _
    rw [place, if_neg (by omega), Nat.add_zero, Nat.add_sub_cancel, Nat.sub_zero]
    simp only [listing, Int.sub_self]
    rw [directoryEntries_directory ms 0 _ storable (by rw [wideMark]; omega) (Nat.lt_succ_self _)]
    rfl

/-! ## Finding a member -/

theorem names_entriesFrom (offset : Nat) (ms : List Member) :
    (entriesFrom offset ms).map Entry.name = ms.map fun m => storedName m.name := by
  induction ms generalizing offset with
  | nil => rfl
  | cons m rest ih =>
      rw [entriesFrom, List.map_cons, List.map_cons, ih]
      congr 1
      exact storedName_storedName m.name

/-- The entry of each member tells where the member stands. -/
theorem mem_entriesFrom (front : List Member) (m : Member) (back : List Member) (offset : Nat) :
    entryOf m (offset + (contents front).length) ∈ entriesFrom offset (front ++ m :: back) := by
  induction front generalizing offset with
  | nil => exact List.mem_cons_self
  | cons first rest ih =>
      have total : (contents (first :: rest)).length =
          (localRecord first).length + (contents rest).length := List.length_append
      rw [total, ← Nat.add_assoc, List.cons_append, entriesFrom]
      exact List.mem_cons_of_mem _ (ih _)

/-- Entries are the same if they have the same name, and no two members have. -/
theorem eq_of_name_eq {ms : List Member} (distinct : (ms.map fun m => storedName m.name).Nodup)
    {offset : Nat} {e f : Entry} (he : e ∈ entriesFrom offset ms) (hf : f ∈ entriesFrom offset ms)
    (same : e.name = f.name) : e = f := by
  rw [← names_entriesFrom offset] at distinct
  exact List.inj_on_of_nodup_map distinct he hf same

namespace Container

theorem names_opened (ms : List Member) :
    (opened ms).names = ms.map fun m => storedName m.name := names_entriesFrom 0 ms

/-- The entry of a member is found by its stored name. -/
theorem find?_opened {front : List Member} {m : Member} {back : List Member}
    (distinct : ((front ++ m :: back).map fun m => storedName m.name).Nodup) :
    (opened (front ++ m :: back)).find? (storedName m.name) =
      some (entryOf m (contents front).length) := by
  have present : entryOf m (contents front).length ∈ entriesFrom 0 (front ++ m :: back) := by
    have := mem_entriesFrom front m back 0
    rwa [Nat.zero_add] at this
  have name : (entryOf m (contents front).length).name = storedName m.name :=
    storedName_storedName m.name
  unfold Container.find?
  cases found : (opened (front ++ m :: back)).entries.reverse.find?
      fun entry => entry.name == storedName m.name with
  | none =>
      have other := List.find?_eq_none.mp found _ (List.mem_reverse.mpr present)
      simp [name] at other
  | some e =>
      have same : e.name = storedName m.name := by simpa using List.find?_some found
      have member := List.mem_reverse.mp (List.mem_of_find?_eq_some found)
      rw [eq_of_name_eq distinct member present (same.trans name.symm)]

/-- A name without a member leads to nothing. -/
theorem find?_eq_none {container : Container} {name : Text} (absent : name ∉ container.names) :
    container.find? name = none := by
  unfold Container.find?
  rw [List.find?_eq_none]
  intro e member
  have other : e.name ≠ name := by
    rintro rfl
    exact absent (List.mem_map_of_mem (List.mem_reverse.mp member))
  simpa using other

/-! ## Where a member ends -/

end Container

/-- How many bytes a stored member has with its record. -/
def Entry.extent (entry : Entry) : Nat :=
  Container.localRecordSize + (nameBytes entry.rawName).length + entry.packedSize

theorem extent_entryOf (m : Member) (offset : Nat) :
    (entryOf m offset).extent = (localRecord m).length := by
  rw [length_localRecord, Entry.extent]
  show _ + (nameBytes (storedName m.name)).length + m.content.length = _
  rw [nameBytes, storedName_storedName]
  rfl

theorem offset_of_mem {ms : List Member} {offset : Nat} {e : Entry}
    (h : e ∈ entriesFrom offset ms) : (offset : Int) ≤ e.offset := by
  induction ms generalizing offset with
  | nil => exact absurd h List.not_mem_nil
  | cons m rest ih =>
      rcases List.mem_cons.mp h with rfl | later
      · exact Int.le_refl _
      · have := ih later
        omega

/-- The members stand one behind the other. -/
theorem pairwise_entriesFrom (offset : Nat) (ms : List Member) :
    (entriesFrom offset ms).Pairwise fun a b => decide (b.offset ≤ a.offset) = false := by
  induction ms generalizing offset with
  | nil => exact List.Pairwise.nil
  | cons m rest ih =>
      refine List.Pairwise.cons ?_ (ih _)
      intro e member
      have behind := offset_of_mem member
      have place : (entryOf m offset).offset = (offset : Int) := rfl
      rw [length_localRecord, Container.localRecordSize] at behind
      rw [place, decide_eq_false_iff_not]
      omega

theorem entriesFrom_concat (offset : Nat) (ms : List Member) (m : Member) :
    entriesFrom offset (ms ++ [m]) =
      entriesFrom offset ms ++ [entryOf m (offset + (contents ms).length)] := by
  induction ms generalizing offset with
  | nil => rfl
  | cons first rest ih =>
      have total : (contents (first :: rest)).length =
          (localRecord first).length + (contents rest).length := List.length_append
      rw [List.cons_append, entriesFrom, entriesFrom, ih, total, Nat.add_assoc, List.cons_append]

/-- Each entry ends where the one behind it stands. -/
theorem ends_reverse (ms : List Member) :
    ∀ p ∈ (entriesFrom 0 ms).reverse.zip
      (((contents ms).length : Int) :: (entriesFrom 0 ms).reverse.map Entry.offset),
      p.2 = p.1.offset + p.1.extent := by
  induction ms using List.reverseRecOn with
  | nil => simp [entriesFrom]
  | append_singleton ms m ih =>
      have total : (contents (ms ++ [m])).length =
          (contents ms).length + (localRecord m).length := by
        rw [contents_append, List.length_append]
        simp only [contents, List.flatMap_cons, List.flatMap_nil, List.append_nil]
      have place : (entryOf m (contents ms).length).offset = ((contents ms).length : Int) := rfl
      rw [entriesFrom_concat, Nat.zero_add, List.reverse_concat, List.map_cons, List.zip_cons_cons,
        place]
      intro p member
      rcases List.mem_cons.mp member with rfl | earlier
      · show ((contents (ms ++ [m])).length : Int) = (entryOf m (contents ms).length).offset + _
        rw [extent_entryOf, place, total]
        omega
      · exact ih p earlier

namespace Container

theorem withEnds_opened (ms : List Member) : ∀ p ∈ (opened ms).withEnds,
    p.1 ∈ entriesFrom 0 ms ∧ p.2 = p.1.offset + p.1.extent := by
  have order : (opened ms).byPlaceDescending = (entriesFrom 0 ms).reverse :=
    sortedBy_of_descending (pairwise_entriesFrom 0 ms)
  intro p member
  unfold withEnds at member
  simp only [order] at member
  exact ⟨List.mem_reverse.mp (List.of_mem_zip member).1, ends_reverse ms p member⟩

/-- A member has the room that its record and its content take. -/
theorem extent_le_endOf {front : List Member} {m : Member} {back : List Member}
    (distinct : ((front ++ m :: back).map fun m => storedName m.name).Nodup) :
    (((contents front).length + (localRecord m).length : Nat) : Int) ≤
      (opened (front ++ m :: back)).endOf (storedName m.name) := by
  have present : entryOf m (contents front).length ∈ entriesFrom 0 (front ++ m :: back) := by
    have := mem_entriesFrom front m back 0
    rwa [Nat.zero_add] at this
  have name : (entryOf m (contents front).length).name = storedName m.name :=
    storedName_storedName m.name
  unfold endOf
  split
  · rename_i e place found
    have kept := List.mem_filter.mp (List.mem_of_getLast? found)
    obtain ⟨member, ends⟩ := withEnds_opened _ _ kept.1
    have same : e.name = storedName m.name := by simpa using kept.2
    obtain rfl := eq_of_name_eq distinct member present (same.trans name.symm)
    simp only at ends
    rw [ends, extent_entryOf]
    exact Int.le_refl _
  · show _ ≤ (((contents (front ++ m :: back)).length : Nat) : Int)
    rw [contents_append, List.length_append]
    have total : (contents (m :: back)).length =
        (localRecord m).length + (contents back).length := List.length_append
    omega

/-! ## Reading a member -/

theorem storedContent_entryOf (m : Member) (offset : Nat) (rest : Bytes) :
    storedContent (entryOf m offset) (m.content ++ rest) = .ok m.content := by
  have packed : (m.content ++ rest).take m.content.length = m.content := List.take_left
  have content : m.content.take m.content.length = m.content := List.take_length
  unfold storedContent
  simp only [entryOf, packed, content, Nat.lt_irrefl, false_and, if_false, if_true]

/-- In a container the record of a member stands behind the members in front of it. -/
theorem drop_opened (front : List Member) (m : Member) (back : List Member) :
    ∃ rest, (opened (front ++ m :: back)).bytes.drop (contents front).length =
      localFields m ++ (nameBytes m.name ++ (m.content ++ rest)) := by
  refine ⟨contents back ++ (directory 0 (front ++ m :: back) ++
    endRecord (front ++ m :: back).length (directory 0 (front ++ m :: back)).length
      (contents (front ++ m :: back)).length), ?_⟩
  have cons : contents (m :: back) = localRecord m ++ contents back := rfl
  show (write (front ++ m :: back)).drop _ = _
  rw [write, contents_append, cons, localRecord_eq]
  simp only [List.append_assoc]
  rw [List.drop_left]

/-- The content of a member is read as it was written. -/
theorem contentOf_opened {front : List Member} {m : Member} {back : List Member}
    (h : m.IsStorable)
    (distinct : ((front ++ m :: back).map fun m => storedName m.name).Nodup) :
    (opened (front ++ m :: back)).contentOf (storedName m.name)
      (entryOf m (contents front).length) = .ok m.content := by
  have room := extent_le_endOf distinct
  obtain ⟨place, ends⟩ : ∃ place, place =
      (opened (front ++ m :: back)).endOf (storedName m.name) := ⟨_, rfl⟩
  rw [← ends, length_localRecord] at room
  obtain ⟨rest, behind⟩ := drop_opened front m back
  have record : (localFields m ++ (nameBytes m.name ++ (m.content ++ rest))).take
      localRecordSize = localFields m := List.take_left' (length_localFields m)
  have after : (localFields m ++ (nameBytes m.name ++ (m.content ++ rest))).drop
      localRecordSize = nameBytes m.name ++ (m.content ++ rest) :=
    List.drop_left' (length_localFields m)
  have data : (localFields m ++ (nameBytes m.name ++ (m.content ++ rest))).drop
      (localRecordSize + (nameBytes m.name).length + 0) = m.content ++ rest := by
    rw [Nat.add_zero, ← List.drop_drop, after, List.drop_left]
  have magic : localMagic.isPrefixOf (localFields m) = true := rfl
  have flags : numberAt (localFields m) 6 2 = nameFlags m.name := ofLittleEndian_nameFlags m.name
  have nameLength : numberAt (localFields m) 26 2 = (nameBytes m.name).length :=
    h.ofLittleEndian_name
  have extra : numberAt (localFields m) 28 2 = 0 := rfl
  have name : (nameBytes m.name ++ (m.content ++ rest)).take (nameBytes m.name).length =
      nameBytes m.name := List.take_left
  have positive : ¬ ((contents front).length : Int) < 0 := by omega
  have fits : ¬ min (((contents front).length : Int) +
        ((localRecordSize + (nameBytes m.name).length + 0 : Nat) : Int))
        (max ((contents front).length : Int) ((opened (front ++ m :: back)).bytes.length : Int)) +
      (m.content.length : Int) > place := by
    omega
  unfold contentOf
  simp only [entryOf, Int.toNat_natCast, behind, record, length_localFields, magic, nameLength,
    extra, after, name, flags, unmarked_nameFlags, nameText_nameBytes h.encodable, data, ← ends, positive,
    fits, Nat.lt_irrefl, Bool.not_true, Bool.false_eq_true, bne_self_eq_false, if_false, if_true,
    bind, Except.bind, ne_eq, not_true]
  exact storedContent_entryOf m _ rest

/-- A member is read by its stored name. -/
theorem read?_opened {ms : List Member} (storable : ∀ m ∈ ms, m.IsStorable)
    (distinct : (ms.map fun m => storedName m.name).Nodup) {m : Member} (member : m ∈ ms) :
    (opened ms).read? (storedName m.name) = some (.ok m.content) := by
  obtain ⟨front, back, rfl⟩ := List.append_of_mem member
  rw [read?, find?_opened distinct, Option.map_some,
    contentOf_opened (storable m member) distinct]

/-- No member is read by another name. -/
theorem read?_eq_none {container : Container} {name : Text} (absent : name ∉ container.names) :
    container.read? name = none := by
  rw [read?, find?_eq_none absent, Option.map_none]

end Container

end ModulePackaging.Zip
