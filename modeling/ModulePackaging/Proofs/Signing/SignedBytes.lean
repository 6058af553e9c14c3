import ModulePackaging.Proofs.Descriptors
import ModulePackaging.Signing.Block

/-!
# Signed bytes are unambiguous

A signature covers the artifact followed by the canonical bytes of the descriptor, with nothing in
between. That the two can be told apart rests on one fact about canonical descriptors: the opening
`\x7b"b` stands at their very start and nowhere else, whatever the texts in them hold. A scan of the
bytes that knows only whether it is inside a string shows it; a brace inside a string can be
followed by the closing quote, but then a colon, a comma or a brace comes next.
-/

namespace ModulePackaging.Signing

/-! ## The scan -/

/-- Where a scan of canonical bytes stands: between strings, right behind one, inside one, or inside
one right behind a backslash. -/
inductive Place
  | outside
  | behind
  | inside
  | escaped
  deriving DecidableEq

/-- The place after one more byte. No object may open between strings, and a string is followed by a
colon, a comma or a closing brace. -/
def Place.next : Place → UInt8 → Option Place
  | outside, b =>
    if b = 0x22 then some inside else if b = 0x7B then none else some outside
  | behind, b => if b = 0x3A ∨ b = 0x2C ∨ b = 0x7D then some outside else none
  | inside, b => if b = 0x22 then some behind else if b = 0x5C then some escaped else some inside
  | escaped, _ => some inside

/-- The place after some bytes. -/
def scan : Place → Bytes → Option Place
  | place, [] => some place
  | place, b :: rest =>
    match place.next b with
    | some next => scan next rest
    | none => none

/-- What canonical descriptors start with. -/
def opening : Bytes := [0x7B, 0x22, 0x62]

theorem scan_append (place : Place) (front rest : Bytes) :
    scan place (front ++ rest) =
      match scan place front with
      | some next => scan next rest
      | none => none := by
  induction front generalizing place with
  | nil => rfl
  | cons b front ih =>
      simp only [List.cons_append, scan]
      cases place.next b with
      | none => rfl
      | some next => exact ih next

/-- No scan passes the opening, wherever it stands. -/
theorem scan_opening (place : Place) (rest : Bytes) : scan place (opening ++ rest) = none := by
  cases place <;> rfl

/-- Bytes that a scan passes do not hold the opening. -/
theorem opening_notIn_of_scan {place last : Place} {bytes : Bytes}
    (pass : scan place bytes = some last) (front rest : Bytes) :
    bytes ≠ front ++ (opening ++ rest) := by
  rintro rfl
  rw [scan_append] at pass
  cases reached : scan place front with
  | none => simp [reached] at pass
  | some next => simp [reached, scan_opening] at pass

/-! ## Strings and numbers pass -/

theorem byte_ne {c : CodePoint} {b : UInt8} (low : c.val < 0x80) (other : c.val ≠ b.toNat) :
    c.val.toUInt8 ≠ b := by
  rintro rfl
  exact other (Utf8.toNat_toUInt8 (by omega)).symm

/-- Bytes past ASCII leave the scan inside a string. -/
theorem scan_inside_high {front : Bytes} (high : ∀ b ∈ front, 0x80 ≤ b.toNat) (rest : Bytes) :
    scan .inside (front ++ rest) = scan .inside rest := by
  induction front with
  | nil => rfl
  | cons b front ih =>
      have first := high b List.mem_cons_self
      have quote : b ≠ 0x22 := by
        rintro rfl
        exact absurd first (by decide)
      have backslash : b ≠ 0x5C := by
        rintro rfl
        exact absurd first (by decide)
      rw [List.cons_append, scan, Place.next, if_neg quote, if_neg backslash]
      exact ih fun b member => high b (List.mem_cons_of_mem _ member)

/-- A code point that stands for itself leaves the scan inside a string. -/
theorem scan_inside_point {c : CodePoint} (quote : c ≠ 0x22) (backslash : c ≠ 0x5C)
    (rest : Bytes) : scan .inside (Utf8.encodePoint c ++ rest) = scan .inside rest := by
  by_cases low : c.val < 0x80
  · rw [Utf8.encodePoint_ascii low, List.singleton_append, scan, Place.next]
    rw [if_neg (byte_ne (b := 0x22) low fun same => quote (Fin.ext same)),
      if_neg (byte_ne (b := 0x5C) low fun same => backslash (Fin.ext same))]
  · exact scan_inside_high (Utf8.encodePoint_high (by omega)) rest

theorem hexDigit_plain {d : Nat} (h : d < 16) :
    Text.hexDigit d ≠ 0x22 ∧ Text.hexDigit d ≠ 0x5C := by
  have all : ∀ d : Fin 16, Text.hexDigit d ≠ 0x22 ∧ Text.hexDigit d ≠ 0x5C := by decide
  exact all ⟨d, h⟩

/-- A written code point leaves the scan inside a string. -/
theorem scan_escapeControls (c : CodePoint) (rest : Bytes) :
    scan .inside ((Json.escapeControls c).flatMap Utf8.encodePoint ++ rest) =
      scan .inside rest := by
  rcases Json.escapeControls_cases c with ⟨letter, _, _, low, _, form⟩ | ⟨control, form⟩ |
    ⟨quote, backslash, _, form⟩
  · rw [form]
    simp only [List.flatMap_cons, List.flatMap_nil, List.append_nil, Utf8.encodePoint_ascii low]
    rfl
  · rw [form]
    show scan .inside
      ((0x5C :: 0x75 :: Text.hexDigits 4 c.val : Text).flatMap Utf8.encodePoint ++ rest) = _
    rw [Json.hexDigits_four]
    simp only [List.flatMap_cons, List.flatMap_nil, List.append_nil, List.append_assoc]
    have start : ∀ others, scan .inside (Utf8.encodePoint 0x5C ++ (Utf8.encodePoint 0x75 ++ others)) =
        scan .inside others := fun _ => rfl
    rw [start, scan_inside_point (hexDigit_plain (Nat.mod_lt _ (by decide))).1
        (hexDigit_plain (Nat.mod_lt _ (by decide))).2,
      scan_inside_point (hexDigit_plain (Nat.mod_lt _ (by decide))).1
        (hexDigit_plain (Nat.mod_lt _ (by decide))).2,
      scan_inside_point (hexDigit_plain (Nat.mod_lt _ (by decide))).1
        (hexDigit_plain (Nat.mod_lt _ (by decide))).2,
      scan_inside_point (hexDigit_plain (Nat.mod_lt _ (by decide))).1
        (hexDigit_plain (Nat.mod_lt _ (by decide))).2]
  · rw [form]
    simp only [List.flatMap_cons, List.flatMap_nil, List.append_nil]
    exact scan_inside_point quote backslash rest

/-- A written string passes, and the scan is right behind it. -/
theorem scan_string (t : Text) (rest : Bytes) :
    scan .outside ((Json.Style.canonical.string t).flatMap Utf8.encodePoint ++ rest) =
      scan .behind rest := by
  have content : ∀ (t : Text) (rest : Bytes),
      scan .inside ((t.flatMap Json.escapeControls).flatMap Utf8.encodePoint ++ rest) =
        scan .inside rest := by
    intro t
    induction t with
    | nil => intro rest; rfl
    | cons c t ih =>
        intro rest
        rw [List.flatMap_cons, List.flatMap_append, List.append_assoc, scan_escapeControls, ih]
  rw [Json.Style.string_eq, List.flatMap_cons, List.flatMap_append]
  show scan .inside ((t.flatMap Json.escapeControls).flatMap Utf8.encodePoint ++ [0x22] ++ rest) = _
  rw [List.append_assoc, content]
  rfl

/-- A code point that is no quote and no brace leaves the scan between strings. -/
theorem scan_outside_point {c : CodePoint} (low : c.val < 0x80) (quote : c ≠ 0x22)
    (brace : c ≠ 0x7B) (rest : Bytes) :
    scan .outside (Utf8.encodePoint c ++ rest) = scan .outside rest := by
  rw [Utf8.encodePoint_ascii low, List.singleton_append, scan, Place.next]
  rw [if_neg (byte_ne (b := 0x22) low fun same => quote (Fin.ext same)),
    if_neg (byte_ne (b := 0x7B) low fun same => brace (Fin.ext same))]

theorem scan_ofNat (n : Nat) (rest : Bytes) :
    scan .outside ((Text.ofNat n).flatMap Utf8.encodePoint ++ rest) = scan .outside rest := by
  have digits := Text.isAsciiDigit_of_mem_ofNat n
  generalize Text.ofNat n = t at digits
  induction t with
  | nil => rfl
  | cons c t ih =>
      have digit := digits c List.mem_cons_self
      have low : c.val < 0x80 := by
        simp only [CodePoint.isAsciiDigit, Bool.and_eq_true, decide_eq_true_eq] at digit
        omega
      have other : ∀ d : CodePoint, d.isAsciiDigit = false → c ≠ d := by
        rintro d none rfl
        rw [digit] at none
        exact absurd none (by decide)
      rw [List.flatMap_cons, List.append_assoc,
        scan_outside_point low (other _ (by decide)) (other _ (by decide))]
      exact ih fun c member => digits c (List.mem_cons_of_mem _ member)

/-- A written whole number passes. -/
theorem scan_ofInt (n : Int) (rest : Bytes) :
    scan .outside ((Text.ofInt n).flatMap Utf8.encodePoint ++ rest) = scan .outside rest := by
  cases n with
  | ofNat n => exact scan_ofNat n rest
  | negSucc n =>
      show scan .outside ((0x2D :: Text.ofNat (n + 1) : Text).flatMap Utf8.encodePoint ++ rest) = _
      rw [List.flatMap_cons, List.append_assoc,
        scan_outside_point (by decide) (by decide) (by decide), scan_ofNat]

/-! ## Descriptors pass -/

/-- A value that is a text or a whole number. -/
def IsFlat (v : Json) : Prop := (∃ t, v = .str t) ∨ ∃ n, v = .int n

/-- A member with a flat value passes, together with the comma or the brace behind it. -/
theorem scan_member (level : Nat) {m : Text × Json} (flat : IsFlat m.2) {b : UInt8}
    (ends : b = 0x2C ∨ b = 0x7D) (rest : Bytes) :
    scan .outside ((Json.Style.member level m).flatMap Utf8.encodePoint ++ b :: rest) =
      scan .outside rest := by
  have colon : ∀ others, scan .behind (Utf8.encodePoint 0x3A ++ others) = scan .outside others :=
    fun _ => rfl
  rw [Json.Style.member, List.flatMap_append, List.append_assoc, scan_string, List.flatMap_cons,
    List.append_assoc, colon]
  rcases flat with ⟨t, form⟩ | ⟨n, form⟩
  · rw [form, Json.Style.write, scan_string]
    rcases ends with rfl | rfl <;> rfl
  · rw [form, Json.Style.write, scan_ofInt]
    rcases ends with rfl | rfl <;> rfl

/-- Members with flat values pass, up to the closing brace. -/
theorem scan_members (level : Nat) (ms : List (Text × Json)) (some : ms ≠ [])
    (flat : ∀ m ∈ ms, IsFlat m.2) (rest : Bytes) :
    scan .outside
      ((Text.joined [0x2C] (ms.map (Json.Style.member level))).flatMap Utf8.encodePoint ++
        0x7D :: rest) = scan .outside rest := by
  induction ms with
  | nil => exact absurd rfl some
  | cons m others ih =>
      cases others with
      | nil =>
          rw [List.map_cons, List.map_nil, Text.joined]
          exact scan_member level (flat m List.mem_cons_self) (Or.inr rfl) rest
      | cons w others =>
          rw [List.map_cons, Json.Reader.joined_comma _ _ (by simp), List.flatMap_append,
            List.flatMap_cons, List.append_assoc, List.append_assoc]
          show scan .outside (_ ++ 0x2C :: _) = _
          rw [scan_member level (flat m List.mem_cons_self) (Or.inl rfl)]
          exact ih (List.cons_ne_nil _ _) fun u member => flat u (List.mem_cons_of_mem _ member)

/-- The bytes of a canonical descriptor: the opening, and what passes the scan behind the brace. -/
theorem canonical_form {d : Descriptor} {bytes : Bytes} (h : d.draft.canonicalBytes = .ok bytes) :
    ∃ rest others, bytes = opening ++ rest ∧ bytes = 0x7B :: others ∧
      scan .outside others = some .outside := by
  rw [Descriptor.draft_canonicalBytes, Json.storedBytes_eq_ok, Utf8.encode_eq_ok] at h
  obtain ⟨_, _, rfl⟩ := h
  rw [Json.canonicalText, Descriptor.toJson, Json.Style.write_obj, Field.inKeyOrder_all]
  -- The opening is the brace and the start of the key that is first in the order of the keys.
  have first : ∀ (v : Json) (ms : List (Text × Json)), ∃ onward,
      Text.joined [0x2C] (((("build_id" : Text), v) :: ms).map (Json.Style.member 1)) =
        0x22 :: 0x62 :: onward := by
    intro v ms
    cases ms with
    | nil => exact ⟨_, rfl⟩
    | cons m ms =>
        rw [List.map_cons, Json.Reader.joined_comma _ _ (by simp)]
        exact ⟨_, rfl⟩
  have flat : ∀ m ∈ Field.byKey.map fun field => (field.key, d.value field), IsFlat m.2 := by
    intro m member
    obtain ⟨field, _, rfl⟩ := List.mem_map.mp member
    rcases d.value_cases field with ⟨t, form⟩ | ⟨_, form⟩
    · exact Or.inl ⟨t, form⟩
    · exact Or.inr ⟨_, form⟩
  obtain ⟨onward, start⟩ := first (d.value .buildId)
    ((Field.byKey.tail).map fun field => (field.key, d.value field))
  have pass := scan_members 1 (Field.byKey.map fun field => (field.key, d.value field))
    (List.cons_ne_nil _ _) flat []
  refine ⟨(onward ++ [0x7D]).flatMap Utf8.encodePoint, _, ?_, List.flatMap_cons, ?_⟩
  · show List.flatMap Utf8.encodePoint
      (0x7B :: (Text.joined [0x2C] (((("build_id" : Text), d.value .buildId) ::
        (Field.byKey.tail).map fun field => (field.key, d.value field)).map
          (Json.Style.member 1)) ++ [0x7D])) = _
    rw [start]
    rfl
  · rw [List.flatMap_append]
    exact pass

/-! ## The artifact and the descriptor can be told apart -/

/-- Of two canonical descriptors none is a proper end of the other. -/
theorem eq_nil_of_suffix {d e : Descriptor} {bytes front : Bytes}
    (h : d.draft.canonicalBytes = .ok (front ++ bytes)) (k : e.draft.canonicalBytes = .ok bytes) :
    front = [] := by
  obtain ⟨rest, _, start, _⟩ := canonical_form k
  obtain ⟨_, others, _, form, pass⟩ := canonical_form h
  cases front with
  | nil => rfl
  | cons b front =>
      injection form with _ form
      rw [start] at form
      exact absurd form.symm (opening_notIn_of_scan pass front rest)

/-- Canonical bytes determine the descriptor. -/
theorem canonicalBytes_inj {d e : Descriptor} {bytes : Bytes}
    (h : d.draft.canonicalBytes = .ok bytes) (k : e.draft.canonicalBytes = .ok bytes) : d = e := by
  rw [Descriptor.draft_canonicalBytes, Json.storedBytes_eq_ok] at h k
  have text := Utf8.encode_inj h.2 k.2
  have readD := Json.read_canonicalText_alone
    (Descriptor.storable_toJson (d.holdsLong_toJson ▸ h.1) 989)
  have readE := Json.read_canonicalText_alone
    (Descriptor.storable_toJson (e.holdsLong_toJson ▸ k.1) 989)
  rw [text, readE] at readD
  exact Descriptor.eq_of_inOrder_eq (Except.ok.inj readD).symm

theorem signedBytes_eq_ok {artifact : Bytes} {d : Descriptor} {bytes : Bytes} :
    signedBytes artifact d.draft = .ok bytes ↔
      ∃ canonical, d.draft.canonicalBytes = .ok canonical ∧ bytes = artifact ++ canonical := by
  unfold signedBytes
  rw [bind_eq_ok]
  simp only [pure, Except.pure, Except.ok.injEq, eq_comm]

/-- Signed bytes tell the artifact and the descriptor. -/
theorem signedBytes_inj {a b : Bytes} {d e : Descriptor} {bytes : Bytes}
    (h : signedBytes a d.draft = .ok bytes) (k : signedBytes b e.draft = .ok bytes) :
    a = b ∧ d = e := by
  obtain ⟨left, hleft, rfl⟩ := signedBytes_eq_ok.mp h
  obtain ⟨right, hright, same⟩ := signedBytes_eq_ok.mp k
  rcases List.append_eq_append_iff.mp same with ⟨front, artifacts, rfl⟩ | ⟨front, artifacts, rfl⟩
  · obtain rfl := eq_nil_of_suffix hleft hright
    exact ⟨by simpa using artifacts.symm, canonicalBytes_inj hleft hright⟩
  · obtain rfl := eq_nil_of_suffix hright hleft
    exact ⟨by simpa using artifacts, canonicalBytes_inj hleft hright⟩

/-- What is signed determines both the artifact and the descriptor, field by field, and it is there
exactly for the descriptors that can be written; the digest is taken over it. -/
theorem signedBytes_unambiguous (a b : Bytes) (d e : Descriptor) :
    ((∃ bytes, signedBytes a d.draft = .ok bytes) ↔ d.IsWritable) ∧
      ∀ bytes, signedBytes a d.draft = .ok bytes →
        digest a d.draft = .ok (Sha256.digest bytes) ∧
          (signedBytes b e.draft = .ok bytes → a = b ∧ d = e) := by
  constructor
  · rw [Descriptor.isWritable_iff]
    simp only [signedBytes_eq_ok]
    constructor
    · rintro ⟨_, canonical, h, _⟩
      exact ⟨canonical, h⟩
    · rintro ⟨canonical, h⟩
      exact ⟨_, canonical, h, rfl⟩
  · intro bytes h
    exact ⟨by rw [digest, h]; rfl, signedBytes_inj h⟩

end ModulePackaging.Signing
