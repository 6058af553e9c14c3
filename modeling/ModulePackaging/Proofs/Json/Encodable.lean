import ModulePackaging.Proofs.Json.RoundTrip

/-!
# Which values have bytes

A canonical text holds a surrogate exactly where one of its strings does: everything else that is
written is ASCII. So a value has stored bytes when its strings are encodable and its numbers short.
-/

namespace ModulePackaging

namespace Text

theorem isEncodable_singleton {c : CodePoint} (plain : c.isSurrogate = false) :
    IsEncodable [c] := isEncodable_cons.mpr ⟨plain, isEncodable_nil⟩

theorem isEncodable_flatMap {t : Text} {f : CodePoint → Text} :
    IsEncodable (t.flatMap f) ↔ ∀ c ∈ t, IsEncodable (f c) := by
  induction t with
  | nil => simp
  | cons c rest ih => rw [List.flatMap_cons, isEncodable_append, ih, List.forall_mem_cons]

/-- Pieces with an encodable separator between them are encodable together when each one is. -/
theorem isEncodable_joined {sep : Text} (plain : sep.IsEncodable) {pieces : List Text} :
    (joined sep pieces).IsEncodable ↔ ∀ piece ∈ pieces, piece.IsEncodable := by
  induction pieces with
  | nil => simp [joined]
  | cons piece rest ih =>
      cases rest with
      | nil => simp [joined]
      | cons next others =>
          rw [joined, isEncodable_append, isEncodable_append, ih, List.forall_mem_cons]
          · simp [plain]
          · exact List.cons_ne_nil _ _

/-- ASCII is encodable. -/
theorem isEncodable_of_ascii {t : Text} (all : ∀ c ∈ t, c.val < 0x80) : t.IsEncodable := by
  intro c member
  have low := all c member
  simp only [CodePoint.isSurrogate, Bool.and_eq_false_iff, decide_eq_false_iff_not]
  omega

theorem isEncodable_ofInt (n : Int) : (ofInt n).IsEncodable := by
  have digits : ∀ k, ∀ c ∈ ofNat k, c.val < 0x80 := by
    intro k c member
    have digit := isAsciiDigit_of_mem_ofNat k c member
    simp only [CodePoint.isAsciiDigit, Bool.and_eq_true, decide_eq_true_eq] at digit
    omega
  cases n with
  | ofNat k => exact isEncodable_of_ascii (digits k)
  | negSucc k =>
      show IsEncodable (0x2D :: ofNat (k + 1))
      rw [isEncodable_cons]
      exact ⟨by decide, isEncodable_of_ascii (digits _)⟩

end Text

namespace Json

theorem val_hexDigit {d : Nat} (h : d < 16) : (Text.hexDigit d).val < 0x80 := by
  have all : ∀ d : Fin 16, (Text.hexDigit d).val < 0x80 := by decide
  exact all ⟨d, h⟩

/-- Writing a code point inside a string changes nothing about its being encodable. -/
theorem isEncodable_escapeControls (c : CodePoint) :
    (escapeControls c).IsEncodable ↔ c.isSurrogate = false := by
  have plain : ∀ d : CodePoint, d.val < 0x80 → d.isSurrogate = false := by
    intro d low
    simp only [CodePoint.isSurrogate, Bool.and_eq_false_iff, decide_eq_false_iff_not]
    omega
  rcases escapeControls_cases c with ⟨letter, _, _, low, low', form⟩ | ⟨control, form⟩ |
    ⟨_, _, _, form⟩
  · rw [form, Text.isEncodable_cons]
    simp [plain 0x5C (by decide), plain letter low, plain c low']
  · rw [form]
    simp only [plain c (by omega), iff_true]
    apply Text.isEncodable_of_ascii
    show ∀ d ∈ (0x5C :: 0x75 :: Text.hexDigits 4 c.val : Text), d.val < 0x80
    rw [hexDigits_four]
    simp only [List.forall_mem_cons, List.not_mem_nil, false_implies, implies_true, and_true,
      val_hexDigit (Nat.mod_lt _ (show 0 < 16 by decide))]
    decide
  · rw [form, Text.isEncodable_cons]
    simp

namespace Style

@[simp] theorem isEncodable_string {t : Text} :
    (canonical.string t).IsEncodable ↔ t.IsEncodable := by
  have quote : Text.IsEncodable [0x22] := Text.isEncodable_singleton (by decide)
  rw [string, Text.isEncodable_append, Text.isEncodable_append, Text.isEncodable_flatMap]
  simp only [canonical, isEncodable_escapeControls, quote, true_and, and_true]
  rfl

@[simp] theorem isEncodable_write_str {level : Nat} {t : Text} :
    (canonical.write level (.str t)).IsEncodable ↔ t.IsEncodable := isEncodable_string

@[simp] theorem isEncodable_write_int {level : Nat} {n : Int} :
    (canonical.write level (.int n)).IsEncodable := Text.isEncodable_ofInt n

theorem isEncodable_write_obj {level : Nat} {members : List (Text × Json)} :
    (canonical.write level (.obj members)).IsEncodable ↔
      ∀ m ∈ members, m.1.IsEncodable ∧ (canonical.write (level + 1) m.2).IsEncodable := by
  have opening : CodePoint.isSurrogate 0x7B = false := by decide
  have closing : Text.IsEncodable [0x7D] := Text.isEncodable_singleton (by decide)
  have comma : Text.IsEncodable [0x2C] := Text.isEncodable_singleton (by decide)
  have colon : CodePoint.isSurrogate 0x3A = false := by decide
  rw [write_obj, Text.isEncodable_cons, Text.isEncodable_append, Text.isEncodable_joined comma]
  simp only [opening, closing, true_and, and_true, List.forall_mem_map, mem_inKeyOrder, member,
    Text.isEncodable_append, Text.isEncodable_cons, colon, isEncodable_string]

theorem isEncodable_write_arr {level : Nat} {items : List Json} :
    (canonical.write level (.arr items)).IsEncodable ↔
      ∀ v ∈ items, (canonical.write (level + 1) v).IsEncodable := by
  have opening : CodePoint.isSurrogate 0x5B = false := by decide
  have closing : Text.IsEncodable [0x5D] := Text.isEncodable_singleton (by decide)
  have comma : Text.IsEncodable [0x2C] := Text.isEncodable_singleton (by decide)
  rw [write_arr, Text.isEncodable_cons, Text.isEncodable_append, Text.isEncodable_joined comma]
  simp only [opening, closing, true_and, and_true, List.forall_mem_map]

end Style

end Json

end ModulePackaging
