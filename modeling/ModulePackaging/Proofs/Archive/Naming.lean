import ModulePackaging.Descriptor.Resolve
import ModulePackaging.Proofs.Archive.Filename
import ModulePackaging.Proofs.Archive.Layout
import ModulePackaging.Proofs.Versions

/-!
# What the name of an archive tells

The name of an archive joins five fields, and the package, its number and the host can be read off
it. The version and the request between them cannot always be, because the mark between the two may
be in a version as well. Two pairs of them are joined to one text exactly if one of the versions goes
on, past the mark, with what the request of the other pair begins with.
-/

namespace ModulePackaging

namespace Text

variable {c : CodePoint} {mark rest first second third fourth : Text}

/-- One pair of texts, with a mark between the two, reads on into another one: what its second text
has in front of a further mark belongs to the first text of the other pair. -/
def ReadsOn (mark first second third fourth : Text) : Prop :=
  ∃ middle, third = first ++ mark ++ middle ∧ second = middle ++ mark ++ fourth

theorem ReadsOn.ne (h : ReadsOn mark first second third fourth) (some : mark ≠ []) :
    first ≠ third ∧ second ≠ fourth := by
  obtain ⟨middle, longer, request⟩ := h
  have positive := List.length_pos_of_ne_nil some
  constructor
  · rintro rfl
    have lengths := congrArg List.length longer
    simp only [List.length_append] at lengths
    omega
  · rintro rfl
    have lengths := congrArg List.length request
    simp only [List.length_append] at lengths
    omega

/-- A mark whose first sign is nowhere else in it does not overlap itself: a second one begins where
the first one does, or is behind it. -/
theorem eq_of_mark_append {more : Text} (form : mark = c :: rest) (once : c ∉ rest)
    (same : mark ++ second = more ++ (mark ++ fourth)) : more = [] ∧ second = fourth ∨
      ∃ middle, more = mark ++ middle ∧ second = middle ++ mark ++ fourth := by
  cases more with
  | nil => exact .inl ⟨rfl, List.append_cancel_left same⟩
  | cons d more =>
      right
      rw [form, List.cons_append, List.cons_append, List.cons_eq_cons] at same
      obtain ⟨rfl, same⟩ := same
      rcases List.append_eq_append_iff.mp same with ⟨middle, rfl, after⟩ | ⟨extra, whole, after⟩
      · exact ⟨middle, by rw [form]; rfl, by rw [after, form, List.append_assoc]⟩
      · cases extra with
        | nil => exact ⟨[], by simp [form, whole], by simpa [form] using after.symm⟩
        | cons e extra =>
            obtain ⟨rfl, _⟩ := List.cons_eq_cons.mp after
            exact absurd (by simp [whole]) once

/-- Two texts with such a mark between them are joined to what two others are joined to only if they
are the same or one pair reads on into the other. -/
theorem append_mark_eq_iff (form : mark = c :: rest) (once : c ∉ rest) :
    first ++ mark ++ second = third ++ mark ++ fourth ↔
      first = third ∧ second = fourth ∨ ReadsOn mark first second third fourth ∨
        ReadsOn mark third fourth first second := by
  constructor
  · intro same
    rw [List.append_assoc, List.append_assoc] at same
    rcases List.append_eq_append_iff.mp same with ⟨more, longer, split⟩ | ⟨more, longer, split⟩
    · rcases eq_of_mark_append form once split with ⟨rfl, seconds⟩ | ⟨middle, rfl, second_eq⟩
      · exact .inl ⟨by simp [longer], seconds⟩
      · exact .inr (.inl ⟨middle, by rw [longer, List.append_assoc], second_eq⟩)
    · rcases eq_of_mark_append form once split with ⟨rfl, seconds⟩ | ⟨middle, rfl, fourth_eq⟩
      · exact .inl ⟨by simp [longer], seconds.symm⟩
      · exact .inr (.inr ⟨middle, by rw [longer, List.append_assoc], fourth_eq⟩)
  · rintro (⟨rfl, rfl⟩ | ⟨middle, rfl, rfl⟩ | ⟨middle, rfl, rfl⟩)
    · rfl
    · simp only [List.append_assoc]
    · simp only [List.append_assoc]

end Text

namespace Descriptor

variable {d : Descriptor} {api filename : Text}

/-- The name of an archive as a text, if the number of its package can be written. -/
theorem archiveFilename_eq_ok : d.draft.archiveFilename api = .ok filename ↔
    Decimal.isLong d.numericId = false ∧ ∃ host, d.draft.host = .ok host ∧
      filename = d.name ++ "-" ++ Text.ofInt d.numericId ++ "-" ++ d.version ++ "-api" ++ api ++
        "-" ++ host.key ++ Layout.archiveSuffix := by
  have name : d.draft.shown .name = .ok d.name := rfl
  have version : d.draft.shown .version = .ok d.version := rfl
  have numericId : d.draft.shown .numericId =
      if Decimal.isLong d.numericId then .error (.badValue Decimal.longMessage)
      else .ok (Text.ofInt d.numericId) := rfl
  unfold Draft.archiveFilename
  rw [name, version, numericId]
  cases d.draft.host with
  | error e => simp [bind, Except.bind]
  | ok host =>
      cases Decimal.isLong d.numericId <;> simp [bind, Except.bind, pure, Except.pure, eq_comm]

/-- The host of a checked descriptor. -/
theorem IsChecked.host (checked : d.IsChecked) : ∃ host, d.draft.host = .ok host := by
  obtain ⟨host, known⟩ := checked.hostTriple
  refine ⟨host, ?_⟩
  show (Host.ofTriple d.hostTriple).mapError Fault.ofHost = _
  rw [known]
  rfl

/-- What metadata resolve to is checked. -/
theorem isChecked_of_resolve {base overrides : Members} {strict : Bool}
    (h : Metadata.resolve base overrides strict = .ok d) : d.IsChecked := by
  unfold Metadata.resolve at h
  obtain ⟨filled, _, h⟩ := bind_eq_ok.mp h
  obtain ⟨overridden, _, h⟩ := bind_eq_ok.mp h
  exact (Draft.check_eq_ok (mapError_eq_ok.mp h)).2

/-- The number of a package is written with digits only. -/
theorem IsChecked.notMem_numericId (checked : d.IsChecked) {c : CodePoint}
    (other : c.isAsciiDigit = false) : c ∉ Text.ofInt d.numericId := by
  obtain ⟨n, number⟩ := Int.eq_ofNat_of_zero_le (Int.le_of_lt checked.numericId)
  intro member
  rw [number] at member
  rw [Text.isAsciiDigit_of_mem_ofNat n c member] at other
  exact absurd other (by decide)

/-- The first point in a name is behind the first of a version's numbers, and in that number is no
hyphen. -/
theorem IsChecked.exists_front (checked : d.IsChecked) :
    ∃ front rest, d.version = front ++ Archive.point :: rest ∧ 0x2D ∉ front ∧
      Archive.point ∉ d.name ++ 0x2D :: Text.ofInt d.numericId ++ 0x2D :: front := by
  obtain ⟨v, read⟩ := checked.version
  obtain ⟨⟨front, rest, form, few⟩, _⟩ := Version.form_of_parse read
  have absent : ∀ sign : CodePoint, sign.isBlank = false → sign.isDecimal = false →
      sign ∉ front := by
    intro sign unblank undecimal member
    rcases few sign member with blank | decimal
    · exact absurd blank (by simp [unblank])
    · exact absurd decimal (by simp [undecimal])
  refine ⟨front, rest, form, absent 0x2D (by decide) (by decide), ?_⟩
  simp only [List.mem_append, List.mem_cons, not_or]
  exact ⟨⟨notMem_of_isPackageName checked.name (by decide), by decide,
    checked.notMem_numericId (by decide)⟩, by decide,
    absent Archive.point (by decide) (by decide)⟩

end Descriptor

namespace Archive

variable {d e : Descriptor} {api api' filename filename' : Text}

/-- The name and the number of a package can be read off the beginning of a name. -/
theorem eq_of_beginning (checked : d.IsChecked) (also : e.IsChecked)
    (h : d.name ++ "-" ++ Text.ofInt d.numericId ++ "-" ++ d.version ++ "-api" ++ api =
      e.name ++ "-" ++ Text.ofInt e.numericId ++ "-" ++ e.version ++ "-api" ++ api') :
    d.name = e.name ∧ d.numericId = e.numericId ∧
      d.version ++ "-api" ++ api = e.version ++ "-api" ++ api' := by
  obtain ⟨front, rest, form, hyphen, points⟩ := checked.exists_front
  obtain ⟨front', rest', form', hyphen', points'⟩ := also.exists_front
  have dash : Text.ofString "-" = [0x2D] := rfl
  have split : (d.name ++ 0x2D :: Text.ofInt d.numericId ++ 0x2D :: front) ++
        point :: (rest ++ "-api" ++ api) =
      (e.name ++ 0x2D :: Text.ofInt e.numericId ++ 0x2D :: front') ++
        point :: (rest' ++ "-api" ++ api') := by
    simpa only [form, form', dash, List.append_assoc, List.cons_append, List.nil_append] using h
  obtain ⟨starts, _⟩ := Text.append_cons_inj split points points'
  -- A package name may have hyphens in it, so it ends at the last one in front of the number.
  have numbered := Text.eq_of_append_cons starts hyphen hyphen'
  have name : d.name = e.name := Text.eq_of_append_cons numbered
    (checked.notMem_numericId (by decide)) (also.notMem_numericId (by decide))
  rw [name] at numbered
  have digits := (List.cons_eq_cons.mp (List.append_cancel_left numbered)).2
  have number : d.numericId = e.numericId := Text.ofInt_inj digits
  refine ⟨name, number, ?_⟩
  simpa only [name, number, List.append_assoc, List.append_cancel_left_eq] using h

/-- What a name has for its host is at the end of it. -/
theorem eq_of_ending {front front' : Text} {host host' : Host}
    (h : front ++ "-" ++ host.key ++ Layout.archiveSuffix =
      front' ++ "-" ++ host'.key ++ Layout.archiveSuffix) : host = host' ∧ front = front' := by
  have ending : ∀ (front : Text) (host : Host), ("-" ++ host.key ++ Layout.archiveSuffix : Text) <:+
      front ++ "-" ++ host.key ++ Layout.archiveSuffix :=
    fun front host => ⟨front, by simp only [List.append_assoc]⟩
  have here := ending front host
  have there := h ▸ ending front' host'
  have same : host = host' := by
    cases host with
    | linux64 =>
        cases host' with
        | linux64 => rfl
        | win64 =>
            exact absurd (List.suffix_of_suffix_length_le there here (by decide)) (by decide)
    | win64 =>
        cases host' with
        | linux64 =>
            exact absurd (List.suffix_of_suffix_length_le here there (by decide)) (by decide)
        | win64 => rfl
  refine ⟨same, ?_⟩
  subst same
  exact List.append_cancel_right (List.append_cancel_right (List.append_cancel_right h))

/-- When two archives have one name. -/
theorem filename_eq_iff (checked : d.IsChecked) (also : e.IsChecked)
    (h : d.draft.archiveFilename api = .ok filename)
    (h' : e.draft.archiveFilename api' = .ok filename') :
    filename = filename' ↔ d.name = e.name ∧ d.numericId = e.numericId ∧
      (∃ host, d.draft.host = .ok host ∧ e.draft.host = .ok host) ∧
      (d.version = e.version ∧ api = api' ∨ Text.ReadsOn "-api" d.version api e.version api' ∨
        Text.ReadsOn "-api" e.version api' d.version api) := by
  obtain ⟨_, host, known, rfl⟩ := Descriptor.archiveFilename_eq_ok.mp h
  obtain ⟨_, host', known', rfl⟩ := Descriptor.archiveFilename_eq_ok.mp h'
  have joined : d.version ++ "-api" ++ api = e.version ++ "-api" ++ api' ↔ _ :=
    Text.append_mark_eq_iff rfl (show (0x2D : CodePoint) ∉ Text.ofString "api" by decide)
  rw [← joined]
  constructor
  · intro same
    obtain ⟨rfl, fronts⟩ := eq_of_ending same
    obtain ⟨name, number, rest⟩ := eq_of_beginning checked also fronts
    exact ⟨name, number, ⟨host, known, known'⟩, rest⟩
  · rintro ⟨name, number, ⟨one, here, there⟩, rest⟩
    obtain rfl : host = one := Except.ok.inj (known.symm.trans here)
    obtain rfl : host' = host := Except.ok.inj (known'.symm.trans there)
    have whole := congrArg (fun t => e.name ++ "-" ++ Text.ofInt e.numericId ++ "-" ++ t ++ "-" ++
      host'.key ++ Layout.archiveSuffix) rest
    simpa only [name, number, List.append_assoc] using whole

/-- No slash is in the text of a version. -/
theorem slash_notMem_of_parse {t : Text} {v : Version} (h : Version.parse t = .ok v) :
    Path.slash ∉ t := by
  intro member
  rcases (Version.form_of_parse h).2 _ member with blank | point | sign | part
  · exact absurd blank (by decide)
  · exact absurd point (by decide)
  · exact absurd sign (by decide)
  · exact Version.isPart_ne part (by decide) (by decide) rfl

theorem slash_notMem_toText {t : Text} {v : Version} (h : Version.parse t = .ok v) :
    Path.slash ∉ v.toText :=
  slash_notMem_of_parse (Version.parse_toText (Version.isReadable_of_parse h))

/-- The name of an archive is plain if no slash is in the request. -/
theorem isPlainName_filename (checked : d.IsChecked) (none : Path.slash ∉ api)
    (h : d.draft.archiveFilename api = .ok filename) :
    Path.IsPlainName filename := by
  obtain ⟨_, host, _, rfl⟩ := Descriptor.archiveFilename_eq_ok.mp h
  obtain ⟨v, read⟩ := checked.version
  refine Path.isPlainName_of_length ?_ ?_
  · have suffix : 2 < Layout.archiveSuffix.length := by decide
    rw [List.length_append]
    omega
  · simp only [List.mem_append, not_or]
    have key : Path.slash ∉ host.key := by cases host <;> decide
    exact ⟨⟨⟨⟨⟨⟨⟨⟨⟨notMem_of_isPackageName checked.name (by decide), by decide⟩,
      checked.notMem_numericId (by decide)⟩, by decide⟩, slash_notMem_of_parse read⟩, by decide⟩,
      none⟩, by decide⟩, key⟩, by decide⟩

/-- Plain names in one directory lead to one place only if they are the same. -/
theorem placeOf_name_inj {tree : Files.Tree} {dir : Path} (plain : Path.IsPlainName filename)
    (also : Path.IsPlainName filename') :
    tree.placeOf (dir / Path.ofText filename) = tree.placeOf (dir / Path.ofText filename') ↔
      filename = filename' := by
  rw [Files.Tree.placeOf_join plain, Files.Tree.placeOf_join also]
  simp

variable {base base' overrides overrides' : Members} {strict strict' : Bool}
  {request request' : Text} {r s : Version}

/-- An archive of resolved metadata for a requested version of the host has a name, unless the
number of the package has too many digits. Two of them have one name, and with it one place in a
directory, exactly if package, number and host are the same and version and request too, or one
version runs on past the mark into what the other has for its request. So the archives of one
version have different names for different requests, and those for one request for different
versions. -/
theorem filename_tells (resolved : Metadata.resolve base overrides strict = .ok d)
    (also : Metadata.resolve base' overrides' strict' = .ok e)
    (read : Version.parse request = .ok r) (readAlso : Version.parse request' = .ok s) :
    ((∃ filename, d.draft.archiveFilename r.toText = .ok filename) ↔
      Decimal.isLong d.numericId = false) ∧
    ∀ filename filename', d.draft.archiveFilename r.toText = .ok filename →
      e.draft.archiveFilename s.toText = .ok filename' →
      (filename = filename' ↔ d.name = e.name ∧ d.numericId = e.numericId ∧
        (∃ host, d.draft.host = .ok host ∧ e.draft.host = .ok host) ∧
        (d.version = e.version ∧ r.toText = s.toText ∨
          Text.ReadsOn "-api" d.version r.toText e.version s.toText ∨
          Text.ReadsOn "-api" e.version s.toText d.version r.toText)) ∧
      (d.version = e.version ∨ r.toText = s.toText → filename = filename' →
        d.version = e.version ∧ r.toText = s.toText) ∧
      ∀ (tree : Files.Tree) (dir : Path), tree.placeOf (dir / Path.ofText filename) =
        tree.placeOf (dir / Path.ofText filename') ↔ filename = filename' := by
  have checked := Descriptor.isChecked_of_resolve resolved
  have checkedAlso := Descriptor.isChecked_of_resolve also
  constructor
  · constructor
    · rintro ⟨filename, named⟩
      exact (Descriptor.archiveFilename_eq_ok.mp named).1
    · intro short
      obtain ⟨host, known⟩ := checked.host
      exact ⟨_, Descriptor.archiveFilename_eq_ok.mpr ⟨short, host, known, rfl⟩⟩
  · intro filename filename' named namedAlso
    have same := filename_eq_iff checked checkedAlso named namedAlso
    refine ⟨same, ?_, fun tree dir => placeOf_name_inj
      (isPlainName_filename checked (slash_notMem_toText read) named)
      (isPlainName_filename checkedAlso (slash_notMem_toText readAlso) namedAlso)⟩
    intro one equal
    obtain ⟨_, _, _, both | readsOn | readsOn⟩ := same.mp equal
    · exact both
    · exact absurd one (not_or.mpr (readsOn.ne (by decide)))
    · exact absurd (one.imp Eq.symm Eq.symm) (not_or.mpr (readsOn.ne (by decide)))

end Archive

namespace Sample

/-- The metadata of a package with some version. -/
def metadata (version : Text) : Members := [
  ("name", .str "demo"), ("numeric_id", .int 1001), ("version", .str version),
  ("host_triple", .str "x86_64-unknown-linux-gnu")]

/-- What they resolve to. -/
def package (version : Text) : Descriptor where
  name := "demo"
  numericId := 1001
  version := version
  buildId := ""
  buildIdNamespace := "demo"
  confidentiality := .everyone
  hostTriple := "x86_64-unknown-linux-gnu"
  docTitle := "demo"
  description := ""

/-- The archives of one version for two requests are two files. -/
theorem filename_tells_requests :
    Metadata.resolve (metadata "1.0.0") [] false = .ok (package "1.0.0") ∧
      Version.parse "7.60.0" = .ok ⟨7, 60, 0, [], []⟩ ∧
      Version.parse "7.70.0" = .ok ⟨7, 70, 0, [], []⟩ ∧
      ∃ filename filename', (package "1.0.0").draft.archiveFilename "7.60.0" = .ok filename ∧
        (package "1.0.0").draft.archiveFilename "7.70.0" = .ok filename' ∧
        filename ≠ filename' := by
  have resolved : Metadata.resolve (metadata "1.0.0") [] false = .ok (package "1.0.0") := by rfl
  have first : Version.parse "7.60.0" = .ok ⟨7, 60, 0, [], []⟩ := by rfl
  have second : Version.parse "7.70.0" = .ok ⟨7, 70, 0, [], []⟩ := by rfl
  have told := Archive.filename_tells resolved resolved first second
  obtain ⟨filename, named⟩ := told.1.mpr (by decide)
  obtain ⟨filename', namedAlso⟩ := (Archive.filename_tells resolved resolved second first).1.mpr
    (by decide)
  refine ⟨resolved, first, second, filename, filename', named, namedAlso, ?_⟩
  intro same
  have requests := ((told.2 filename filename' named namedAlso).2.1 (.inl rfl) same).2
  exact absurd requests (by decide)

/-- A version and a request, and another version and another request, whose archives have one
name. -/
theorem filename_shared :
    Metadata.resolve (metadata "1.0.0") [] false = .ok (package "1.0.0") ∧
      Metadata.resolve (metadata "1.0.0-api7.60.0") [] false = .ok (package "1.0.0-api7.60.0") ∧
      Version.parse "7.60.0-api7.70.0" = .ok ⟨7, 60, 0, ["api7", "70", "0"], []⟩ ∧
      Version.parse "7.70.0" = .ok ⟨7, 70, 0, [], []⟩ ∧
      ∃ filename,
        (package "1.0.0").draft.archiveFilename "7.60.0-api7.70.0" = .ok filename ∧
        (package "1.0.0-api7.60.0").draft.archiveFilename "7.70.0" = .ok filename ∧
        (package "1.0.0").version ≠ (package "1.0.0-api7.60.0").version := by
  refine ⟨by rfl, by rfl, by rfl, by rfl,
    "demo-1001-1.0.0-api7.60.0-api7.70.0-linux64.spkg", by rfl, by rfl, by decide⟩

end Sample

end ModulePackaging
