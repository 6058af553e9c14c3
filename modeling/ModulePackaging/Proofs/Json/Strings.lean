import ModulePackaging.Json.Reader
import ModulePackaging.Json.Writer
import ModulePackaging.Proofs.Utf8

/-!
# Strings in JSON texts

The reader takes a written string back apart. Each code point has one of three written forms, and
the reader tells them apart by the first sign: a backslash opens an escape, all else stands for
itself.
-/

namespace ModulePackaging.Json

/-- The hexadecimal digit of a number has that number as its value. -/
theorem Reader.hexValue?_hexDigit {d : Nat} (h : d < 16) :
    Reader.hexValue? (Text.hexDigit d) = some d := by
  have all : ∀ d : Fin 16, Reader.hexValue? (Text.hexDigit d) = some d.val := by decide
  exact all ⟨d, h⟩

theorem hexDigits_four (n : Nat) :
    Text.hexDigits 4 n = [Text.hexDigit (n / 16 / 16 / 16 % 16), Text.hexDigit (n / 16 / 16 % 16),
      Text.hexDigit (n / 16 % 16), Text.hexDigit (n % 16)] := by
  simp [Text.hexDigits]

namespace Reader

/-- Four hexadecimal digits spell their number, if more text follows. -/
theorem hexCode?_hexDigits {n : Nat} (h : n < 0x10000) {rest : Text} (more : rest ≠ []) :
    hexCode? (Text.hexDigits 4 n ++ rest) = some n := by
  rw [hexDigits_four]
  unfold hexCode?
  have follows : rest.isEmpty = false := by simpa using more
  simp only [List.cons_append, List.nil_append, List.drop_succ_cons, List.drop_zero, follows,
    Bool.false_eq_true, if_false, List.take_succ_cons, List.take_zero, List.foldl_cons,
    List.foldl_nil, hexValue?_hexDigit (Nat.mod_lt _ (show 0 < 16 by decide)), Option.pure_def,
    Option.bind_eq_bind, Option.bind_some, Option.some.injEq]
  omega

/-- An escape of four digits that is no half of a pair is read as its code point. -/
theorem unicodeEscape_hexDigits {n : Nat} (h : n < 0xD800) {rest : Text} (more : rest ≠ [])
    (p : Nat) :
    unicodeEscape ⟨p, Text.hexDigits 4 n ++ rest⟩ = .ok (CodePoint.ofNat n, ⟨p + 4, rest⟩) := by
  unfold unicodeEscape
  simp only [hexCode?_hexDigits (show n < 0x10000 by omega) more]
  rw [if_neg (by omega)]
  rw [hexDigits_four]
  rfl

variable {start fuel p : Nat} {read rest : Text}

/-- The closing quote ends a string. -/
theorem stringFrom_quote :
    stringFrom start (fuel + 1) read ⟨p, 0x22 :: rest⟩ = .ok (read.reverse, ⟨p + 1, rest⟩) := by
  rw [stringFrom]
  simp only
  rw [if_pos (by decide)]
  rfl

/-- A code point that stands for itself. -/
theorem stringFrom_plain {c : CodePoint} (quote : c ≠ 0x22) (backslash : c ≠ 0x5C)
    (printing : 0x1F < c.val) :
    stringFrom start (fuel + 1) read ⟨p, c :: rest⟩ =
      stringFrom start fuel (c :: read) ⟨p + 1, rest⟩ := by
  rw [stringFrom]
  simp only
  rw [if_neg (show ¬ c = CodePoint.ofChar '"' from quote),
    if_neg (show ¬ c = CodePoint.ofChar '\\' from backslash), if_neg (by omega)]
  rfl

/-- An escape of one letter. -/
theorem stringFrom_short {letter c : CodePoint} (known : escaped? letter = some c)
    (short : letter ≠ 0x75) :
    stringFrom start (fuel + 1) read ⟨p, 0x5C :: letter :: rest⟩ =
      stringFrom start fuel (c :: read) ⟨p + 2, rest⟩ := by
  rw [stringFrom]
  simp only
  rw [if_neg (by decide), if_pos (by decide),
    if_neg (show ¬ letter = CodePoint.ofChar 'u' from short)]
  simp only [known]
  rfl

/-- An escape of four digits. -/
theorem stringFrom_long {n : Nat} (h : n < 0xD800) (more : rest ≠ []) :
    stringFrom start (fuel + 1) read ⟨p, unitEscape n ++ rest⟩ =
      stringFrom start fuel (CodePoint.ofNat n :: read) ⟨p + 2 + 4, rest⟩ := by
  show stringFrom start (fuel + 1) read ⟨p, 0x5C :: 0x75 :: (Text.hexDigits 4 n ++ rest)⟩ = _
  rw [stringFrom]
  simp only
  rw [if_neg (by decide), if_pos (by decide), if_pos (by decide)]
  have next : Cursor.advance ⟨p, 0x5C :: 0x75 :: (Text.hexDigits 4 n ++ rest)⟩ 2 =
      ⟨p + 2, Text.hexDigits 4 n ++ rest⟩ := rfl
  rw [next, unicodeEscape_hexDigits h more]
  rfl

end Reader

/-- The three written forms of a code point in a canonical string. -/
theorem escapeControls_cases (c : CodePoint) :
    (∃ letter, Reader.escaped? letter = some c ∧ letter ≠ 0x75 ∧ letter.val < 0x80 ∧
      c.val < 0x80 ∧ escapeControls c = [0x5C, letter]) ∨
    (c.val < 0x20 ∧ escapeControls c = unitEscape c.val) ∨
    (c ≠ 0x22 ∧ c ≠ 0x5C ∧ 0x1F < c.val ∧ escapeControls c = [c]) := by
  unfold escapeControls shortEscape?
  by_cases quote : c = 0x22
  · subst quote
    exact Or.inl ⟨0x22, by decide, by decide, by decide, by decide, by decide⟩
  by_cases backslash : c = 0x5C
  · subst backslash
    exact Or.inl ⟨0x5C, by decide, by decide, by decide, by decide, by decide⟩
  by_cases feed : c = 0x0A
  · subst feed
    exact Or.inl ⟨0x6E, by decide, by decide, by decide, by decide, by decide⟩
  by_cases back : c = 0x0D
  · subst back
    exact Or.inl ⟨0x72, by decide, by decide, by decide, by decide, by decide⟩
  by_cases tab : c = 0x09
  · subst tab
    exact Or.inl ⟨0x74, by decide, by decide, by decide, by decide, by decide⟩
  by_cases bell : c = 0x08
  · subst bell
    exact Or.inl ⟨0x62, by decide, by decide, by decide, by decide, by decide⟩
  by_cases form : c = 0x0C
  · subst form
    exact Or.inl ⟨0x66, by decide, by decide, by decide, by decide, by decide⟩
  simp only [quote, backslash, feed, back, tab, bell, form, if_false]
  by_cases control : c.val < 0x20
  · exact Or.inr (Or.inl ⟨control, if_pos control⟩)
  · exact Or.inr (Or.inr ⟨quote, backslash, by omega, if_neg control⟩)

namespace Reader

/-- The reader takes one written code point for that code point. -/
theorem stringFrom_escapeControls (start fuel p : Nat) (read : Text) (c : CodePoint) {rest : Text}
    (more : rest ≠ []) :
    ∃ q, stringFrom start (fuel + 1) read ⟨p, escapeControls c ++ rest⟩ =
      stringFrom start fuel (c :: read) ⟨q, rest⟩ := by
  rcases escapeControls_cases c with ⟨letter, known, short, _, _, form⟩ | ⟨control, form⟩ |
    ⟨quote, backslash, printing, form⟩
  · exact ⟨_, by rw [form]; exact stringFrom_short known short⟩
  · refine ⟨p + 2 + 4, ?_⟩
    rw [form, stringFrom_long (by omega) more, CodePoint.ofNat_val]
  · exact ⟨_, by rw [form]; exact stringFrom_plain quote backslash printing⟩

/-- The reader takes the written code points of a text for that text, up to the closing quote. -/
theorem stringFrom_flatMap (start : Nat) (t : Text) :
    ∀ (fuel p : Nat) (read rest : Text), t.length < fuel →
      ∃ q, stringFrom start fuel read ⟨p, t.flatMap escapeControls ++ 0x22 :: rest⟩ =
        .ok (read.reverse ++ t, ⟨q, rest⟩) := by
  induction t with
  | nil =>
      intro fuel p read rest enough
      obtain ⟨fuel, rfl⟩ := Nat.exists_eq_add_one_of_ne_zero (Nat.pos_iff_ne_zero.mp enough)
      refine ⟨p + 1, ?_⟩
      rw [List.append_nil]
      exact stringFrom_quote
  | cons c t ih =>
      intro fuel p read rest enough
      obtain ⟨fuel, rfl⟩ := Nat.exists_eq_add_one_of_ne_zero (show fuel ≠ 0 by omega)
      rw [List.flatMap_cons, List.append_assoc]
      have more : t.flatMap escapeControls ++ 0x22 :: rest ≠ [] := by simp
      obtain ⟨q, step⟩ := stringFrom_escapeControls start fuel p read c more
      obtain ⟨q', run⟩ := ih fuel q (c :: read) rest (by simpa using enough)
      refine ⟨q', ?_⟩
      rw [step, run, List.reverse_cons, List.append_assoc]
      rfl

end Reader

theorem escapeControls_ne_nil (c : CodePoint) : escapeControls c ≠ [] := by
  rcases escapeControls_cases c with ⟨_, _, _, _, _, form⟩ | ⟨_, form⟩ | ⟨_, _, _, form⟩ <;> rw [form]
  · exact List.cons_ne_nil _ _
  · exact List.cons_ne_nil _ _
  · exact List.cons_ne_nil _ _

theorem length_le_length_flatMap (t : Text) : t.length ≤ (t.flatMap escapeControls).length := by
  induction t with
  | nil => exact Nat.le_refl _
  | cons c t ih =>
      have := List.length_pos_iff.mpr (escapeControls_ne_nil c)
      rw [List.flatMap_cons, List.length_append, List.length_cons]
      omega

/-- The reader takes a written string for its text. -/
theorem Reader.string_write (t : Text) (p : Nat) (rest : Text) :
    ∃ q, Reader.string ⟨p, Style.canonical.string t ++ rest⟩ = .ok (t, ⟨q, rest⟩) := by
  have bound := length_le_length_flatMap t
  obtain ⟨q, run⟩ := Reader.stringFrom_flatMap p t
    (Style.canonical.string t ++ rest).length (p + 1) [] rest
    (by simp only [Style.string, Style.canonical, List.length_append, List.length_cons,
          List.length_nil]
        omega)
  refine ⟨q, ?_⟩
  unfold Reader.string
  have next : Reader.Cursor.advance ⟨p, Style.canonical.string t ++ rest⟩ 1 =
      ⟨p + 1, t.flatMap escapeControls ++ 0x22 :: rest⟩ := by
    simp [Reader.Cursor.advance, Style.string, Style.canonical]
  rw [next]
  exact run

end ModulePackaging.Json
