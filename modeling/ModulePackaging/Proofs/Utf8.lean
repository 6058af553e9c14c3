import Mathlib.Data.List.TakeWhile
import ModulePackaging.Text.Utf8

/-!
# UTF-8 round trip

Reading what was written gives the text back, and a text has a written form exactly when it holds no
surrogate. The proof follows the decoder: one lemma for each kind of byte, one for each length of a
code point, and the run over a text by induction.
-/

namespace ModulePackaging

/-- A text that can be written to a file. -/
def Text.IsEncodable (t : Text) : Prop := ∀ c ∈ t, c.isSurrogate = false

namespace Text

@[simp] theorem isEncodable_nil : IsEncodable [] := by
  intro c member
  exact absurd member List.not_mem_nil

@[simp] theorem isEncodable_cons {c : CodePoint} {t : Text} :
    IsEncodable (c :: t) ↔ c.isSurrogate = false ∧ IsEncodable t := by
  simp [IsEncodable]

@[simp] theorem isEncodable_append {t u : Text} :
    IsEncodable (t ++ u) ↔ IsEncodable t ∧ IsEncodable u := by
  simp only [IsEncodable, List.mem_append]
  constructor
  · intro h
    exact ⟨fun c m => h c (Or.inl m), fun c m => h c (Or.inr m)⟩
  · rintro ⟨left, right⟩ c (m | m)
    · exact left c m
    · exact right c m

/-- The text of a string literal is encodable: characters are no surrogates. -/
theorem isEncodable_ofString (s : String) : (ofString s).IsEncodable := by
  intro c member
  obtain ⟨char, _, rfl⟩ := List.mem_map.mp member
  have valid := char.valid
  have number : (CodePoint.ofChar char).val = char.toNat := by
    unfold CodePoint.ofChar CodePoint.ofNat
    rw [dif_pos]
    rcases valid with low | ⟨_, high⟩
    · exact Nat.lt_trans low (by decide)
    · exact high
  simp only [CodePoint.isSurrogate, number, Bool.and_eq_false_iff, decide_eq_false_iff_not]
  rcases valid with low | ⟨high, _⟩
  · left
    exact Nat.not_le.mpr low
  · right
    exact Nat.not_le.mpr high

end Text

theorem CodePoint.ofNat_val (c : CodePoint) : CodePoint.ofNat c.val = c := by
  simp [CodePoint.ofNat, c.isLt]

/-- Nothing is missing from an encoding exactly when it lacks none of the code points. -/
theorem Codec.firstMissing?_eq_none {codec : Codec} {t : Text} :
    codec.firstMissing? t = none ↔ ∀ c ∈ t, codec.lacks c = false := by
  unfold firstMissing?
  split
  · rename_i rest
    simp only [true_iff]
    intro c member
    have kept := List.dropWhile_eq_nil_iff.mp rest c member
    simpa using kept
  · rename_i c others rest
    simp only [reduceCtorEq, false_iff]
    intro covered
    have member : c ∈ t := by
      have : c ∈ t.dropWhile (!codec.lacks ·) := by rw [rest]; exact List.mem_cons_self
      exact (List.dropWhile_sublist _).mem this
    have lacked := List.head?_dropWhile_not (!codec.lacks ·) t
    rw [rest] at lacked
    have missing : codec.lacks c = true := by simpa using lacked
    rw [covered c member] at missing
    exact absurd missing (by decide)

namespace Utf8

/-- No code point is missing exactly when none is a surrogate. -/
theorem firstMissing?_eq_none {t : Text} :
    Codec.utf8.firstMissing? t = none ↔ t.IsEncodable := Codec.firstMissing?_eq_none

/-- A text has bytes exactly when it holds no surrogate, and which bytes those are. -/
theorem encode_eq_ok {t : Text} {bytes : Bytes} :
    encode t = .ok bytes ↔ t.IsEncodable ∧ bytes = t.flatMap encodePoint := by
  unfold encode
  split
  · rename_i e missing
    simp only [reduceCtorEq, false_iff, not_and]
    intro encodable
    rw [firstMissing?_eq_none.mpr encodable] at missing
    exact absurd missing (by simp)
  · rename_i missing
    rw [firstMissing?_eq_none] at missing
    simp [missing, eq_comm]

theorem encode_of_isEncodable {t : Text} (h : t.IsEncodable) :
    encode t = .ok (t.flatMap encodePoint) :=
  encode_eq_ok.mpr ⟨h, rfl⟩

/-! ## One byte -/

/-- The first byte of a code point, by its number. -/
theorem form?_eq (b : UInt8) : form? b =
    if b.toNat < 0x80 then some (0, 0x80, 0xBF)
    else if b.toNat < 0xC2 then none
    else if b.toNat < 0xE0 then some (1, 0x80, 0xBF)
    else if b.toNat = 0xE0 then some (2, 0xA0, 0xBF)
    else if b.toNat = 0xED then some (2, 0x80, 0x9F)
    else if b.toNat < 0xF0 then some (2, 0x80, 0xBF)
    else if b.toNat = 0xF0 then some (3, 0x90, 0xBF)
    else if b.toNat < 0xF4 then some (3, 0x80, 0xBF)
    else if b.toNat = 0xF4 then some (3, 0x80, 0x8F)
    else none := by
  simp only [form?, UInt8.lt_iff_toNat_lt, ← UInt8.toNat_inj]
  rfl

variable {position : Nat} {read : Text} {b : UInt8} {rest : Bytes}

theorem decodeFrom_single (h : b.toNat < 0x80) :
    decodeFrom position read none (b :: rest) =
      decodeFrom (position + 1) (CodePoint.ofNat b.toNat :: read) none rest := by
  rw [decodeFrom, form?_eq, if_pos h]
  rfl

theorem decodeFrom_first {missing : Nat} {low high : UInt8}
    (h : form? b = some (missing + 1, low, high)) :
    decodeFrom position read none (b :: rest) =
      decodeFrom (position + 1) read
        (some ⟨b, position, lead b (missing + 1), 1, missing + 1, low, high⟩) rest := by
  rw [decodeFrom, h]
  rfl

theorem decodeFrom_last {p : Partial} (h : p.low.toNat ≤ b.toNat ∧ b.toNat ≤ p.high.toNat)
    (last : p.missing ≤ 1) :
    decodeFrom position read (some p) (b :: rest) =
      decodeFrom (position + 1) (CodePoint.ofNat (p.value * 0x40 + b.toNat % 0x40) :: read) none
        rest := by
  rw [decodeFrom, if_pos (by simpa only [UInt8.le_iff_toNat_le] using h), if_pos last]

theorem decodeFrom_more {p : Partial} (h : p.low.toNat ≤ b.toNat ∧ b.toNat ≤ p.high.toNat)
    (more : 1 < p.missing) :
    decodeFrom position read (some p) (b :: rest) =
      decodeFrom (position + 1) read
        (some ⟨p.first, p.start, p.value * 0x40 + b.toNat % 0x40, p.sound + 1, p.missing - 1,
          0x80, 0xBF⟩) rest := by
  rw [decodeFrom, if_pos (by simpa only [UInt8.le_iff_toNat_le] using h), if_neg (by omega)]

/-! ## One code point -/

theorem toNat_toUInt8 {n : Nat} (h : n < 256) : n.toUInt8.toNat = n := UInt8.toNat_ofNat_of_lt' h

theorem encodePoint_ascii {c : CodePoint} (low : c.val < 0x80) :
    encodePoint c = [c.val.toUInt8] := if_pos low

theorem encodePoint_ne_nil (c : CodePoint) : encodePoint c ≠ [] := by
  unfold encodePoint
  simp only
  repeat' split
  all_goals simp

/-- A text has at least as many bytes as code points. -/
theorem length_le_encoded (t : Text) : t.length ≤ (t.flatMap encodePoint).length := by
  induction t with
  | nil => exact Nat.le_refl _
  | cons c rest ih =>
      have some := List.length_pos_iff.mpr (encodePoint_ne_nil c)
      rw [List.flatMap_cons, List.length_append, List.length_cons]
      omega

/-- The bytes of a code point past ASCII are past ASCII. -/
theorem encodePoint_high {c : CodePoint} (high : 0x80 ≤ c.val) :
    ∀ b ∈ encodePoint c, 0x80 ≤ b.toNat := by
  have bound := c.isLt
  unfold encodePoint
  rw [if_neg (by omega)]
  split
  · simp only [List.forall_mem_cons, List.not_mem_nil, false_implies, implies_true, and_true]
    rw [toNat_toUInt8 (by omega), toNat_toUInt8 (by omega)]
    omega
  · split
    · simp only [List.forall_mem_cons, List.not_mem_nil, false_implies, implies_true, and_true]
      rw [toNat_toUInt8 (by omega), toNat_toUInt8 (by omega), toNat_toUInt8 (by omega)]
      omega
    · simp only [List.forall_mem_cons, List.not_mem_nil, false_implies, implies_true, and_true]
      rw [toNat_toUInt8 (by omega), toNat_toUInt8 (by omega), toNat_toUInt8 (by omega),
        toNat_toUInt8 (by omega)]
      omega

/-- A byte that carries six bits follows wherever any may follow. -/
theorem tail_bounds (n : Nat) :
    (0x80 : UInt8).toNat ≤ (0x80 + n % 0x40).toUInt8.toNat ∧
      (0x80 + n % 0x40).toUInt8.toNat ≤ (0xBF : UInt8).toNat := by
  rw [toNat_toUInt8 (by omega)]
  constructor
  · show 0x80 ≤ _
    omega
  · show _ ≤ 0xBF
    omega

/-- The first of two bytes leaves its successor free. -/
theorem form?_two {n : Nat} (low : 0x80 ≤ n) (high : n < 0x800) :
    form? (0xC0 + n / 0x40).toUInt8 = some (1, 0x80, 0xBF) := by
  have first := toNat_toUInt8 (n := 0xC0 + n / 0x40) (by omega)
  rw [form?_eq, first, if_neg (by omega), if_neg (by omega), if_pos (by omega)]

/-- The first of three bytes admits the second one, if the code point is no surrogate. -/
theorem form?_three {n : Nat} (low : 0x800 ≤ n) (high : n < 0x10000)
    (plain : ¬ (0xD800 ≤ n ∧ n ≤ 0xDFFF)) :
    ∃ least most : UInt8, form? (0xE0 + n / 0x1000).toUInt8 = some (2, least, most) ∧
      least.toNat ≤ 0x80 + n / 0x40 % 0x40 ∧ 0x80 + n / 0x40 % 0x40 ≤ most.toNat := by
  have first := toNat_toUInt8 (n := 0xE0 + n / 0x1000) (by omega)
  rw [form?_eq, first, if_neg (by omega), if_neg (by omega), if_neg (by omega)]
  by_cases lowest : 0xE0 + n / 0x1000 = 0xE0
  · refine ⟨0xA0, 0xBF, if_pos lowest, ?_, ?_⟩
    · show 0xA0 ≤ _
      omega
    · show _ ≤ 0xBF
      omega
  · rw [if_neg lowest]
    by_cases surrogates : 0xE0 + n / 0x1000 = 0xED
    · refine ⟨0x80, 0x9F, if_pos surrogates, ?_, ?_⟩
      · show 0x80 ≤ _
        omega
      · show _ ≤ 0x9F
        omega
    · rw [if_neg surrogates]
      refine ⟨0x80, 0xBF, if_pos (by omega), ?_, ?_⟩
      · show 0x80 ≤ _
        omega
      · show _ ≤ 0xBF
        omega

/-- The first of four bytes admits the second one. -/
theorem form?_four {n : Nat} (low : 0x10000 ≤ n) (high : n < 0x110000) :
    ∃ least most : UInt8, form? (0xF0 + n / 0x40000).toUInt8 = some (3, least, most) ∧
      least.toNat ≤ 0x80 + n / 0x1000 % 0x40 ∧ 0x80 + n / 0x1000 % 0x40 ≤ most.toNat := by
  have first := toNat_toUInt8 (n := 0xF0 + n / 0x40000) (by omega)
  rw [form?_eq, first, if_neg (by omega), if_neg (by omega), if_neg (by omega), if_neg (by omega),
    if_neg (by omega), if_neg (by omega)]
  by_cases lowest : 0xF0 + n / 0x40000 = 0xF0
  · refine ⟨0x90, 0xBF, if_pos lowest, ?_, ?_⟩
    · show 0x90 ≤ _
      omega
    · show _ ≤ 0xBF
      omega
  · rw [if_neg lowest]
    by_cases middle : 0xF0 + n / 0x40000 < 0xF4
    · refine ⟨0x80, 0xBF, if_pos middle, ?_, ?_⟩
      · show 0x80 ≤ _
        omega
      · show _ ≤ 0xBF
        omega
    · rw [if_neg middle]
      refine ⟨0x80, 0x8F, if_pos (by omega), ?_, ?_⟩
      · show 0x80 ≤ _
        omega
      · show _ ≤ 0x8F
        omega

/-- The decoder reads the bytes of one code point as that code point. -/
theorem decodeFrom_encodePoint {c : CodePoint} (plain : c.isSurrogate = false) (position : Nat)
    (read : Text) (rest : Bytes) :
    decodeFrom position read none (encodePoint c ++ rest) =
      decodeFrom (position + (encodePoint c).length) (c :: read) none rest := by
  have bound := c.isLt
  have range : ¬ (0xD800 ≤ c.val ∧ c.val ≤ 0xDFFF) := by
    simpa [CodePoint.isSurrogate] using plain
  have whole : ∀ n, n = c.val → CodePoint.ofNat n = c := by
    rintro n rfl
    exact CodePoint.ofNat_val c
  -- One case for each length of the encoded form.
  unfold encodePoint
  by_cases one : c.val < 0x80
  · rw [if_pos one]
    have byte := toNat_toUInt8 (n := c.val) (by omega)
    simp only [List.cons_append, List.nil_append]
    rw [decodeFrom_single (by omega), whole _ byte]
    rfl
  by_cases two : c.val < 0x800
  · rw [if_neg one, if_pos two]
    have byte₀ := toNat_toUInt8 (n := 0xC0 + c.val / 0x40) (by omega)
    have byte₁ := toNat_toUInt8 (n := 0x80 + c.val % 0x40) (by omega)
    simp only [List.cons_append, List.nil_append]
    rw [decodeFrom_first (form?_two (by omega) two)]
    rw [decodeFrom_last (tail_bounds _) (Nat.le_refl _)]
    rw [whole _ (by simp only [lead, byte₀, byte₁]; omega)]
    rfl
  by_cases three : c.val < 0x10000
  · rw [if_neg one, if_neg two, if_pos three]
    have byte₀ := toNat_toUInt8 (n := 0xE0 + c.val / 0x1000) (by omega)
    have byte₁ := toNat_toUInt8 (n := 0x80 + c.val / 0x40 % 0x40) (by omega)
    have byte₂ := toNat_toUInt8 (n := 0x80 + c.val % 0x40) (by omega)
    obtain ⟨least, most, form, admitted⟩ := form?_three (by omega) three range
    simp only [List.cons_append, List.nil_append]
    rw [decodeFrom_first form, decodeFrom_more (by simpa only [byte₁] using admitted) (by show 1 < 2; decide)]
    rw [decodeFrom_last (tail_bounds _) (Nat.le_refl _)]
    rw [whole _ (by simp only [lead, byte₀, byte₁, byte₂]; omega)]
    rfl
  · rw [if_neg one, if_neg two, if_neg three]
    have byte₀ := toNat_toUInt8 (n := 0xF0 + c.val / 0x40000) (by omega)
    have byte₁ := toNat_toUInt8 (n := 0x80 + c.val / 0x1000 % 0x40) (by omega)
    have byte₂ := toNat_toUInt8 (n := 0x80 + c.val / 0x40 % 0x40) (by omega)
    have byte₃ := toNat_toUInt8 (n := 0x80 + c.val % 0x40) (by omega)
    obtain ⟨least, most, form, admitted⟩ := form?_four (n := c.val) (by omega) bound
    simp only [List.cons_append, List.nil_append]
    rw [decodeFrom_first form, decodeFrom_more (by simpa only [byte₁] using admitted) (by show 1 < 3; decide)]
    rw [decodeFrom_more (tail_bounds _) (by show 1 < 2; decide)]
    rw [decodeFrom_last (tail_bounds _) (Nat.le_refl _)]
    rw [whole _ (by simp only [lead, byte₀, byte₁, byte₂, byte₃]; omega)]
    rfl

/-! ## A text -/

/-- The decoder reads the bytes of a text as that text. -/
theorem decodeFrom_flatMap {t : Text} (h : t.IsEncodable) (position : Nat) (read : Text) :
    decodeFrom position read none (t.flatMap encodePoint) = .ok (read.reverse ++ t) := by
  induction t generalizing position read with
  | nil => simp [decodeFrom]
  | cons c rest ih =>
      obtain ⟨plain, others⟩ := Text.isEncodable_cons.mp h
      rw [List.flatMap_cons, decodeFrom_encodePoint plain, ih others]
      simp

theorem decode_flatMap {t : Text} (h : t.IsEncodable) : decode (t.flatMap encodePoint) = .ok t := by
  simpa [decode] using decodeFrom_flatMap h 0 []

/-- What was written is read back. -/
theorem decode_encode {t : Text} {bytes : Bytes} (h : encode t = .ok bytes) :
    decode bytes = .ok t := by
  obtain ⟨encodable, rfl⟩ := encode_eq_ok.mp h
  exact decode_flatMap encodable

/-- Different texts have different bytes. -/
theorem encode_inj {t u : Text} {bytes : Bytes} (h : encode t = .ok bytes)
    (k : encode u = .ok bytes) : t = u := by
  have read := (decode_encode h).symm.trans (decode_encode k)
  simpa using read

end Utf8

end ModulePackaging
