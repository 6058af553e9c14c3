import ModulePackaging.Json.Reader
import ModulePackaging.Proofs.Digits

/-!
# Whole numbers in JSON texts

The reader takes the digits of a whole number for that number, if what follows cannot belong to it.
-/

namespace ModulePackaging.Json.Reader

/-- What may follow a number: nothing that would go on with it. -/
def EndsNumber (rest : Text) : Prop :=
  ∀ c ∈ rest.head?, c.isAsciiDigit = false ∧ c ≠ 0x2E ∧ c ≠ 0x65 ∧ c ≠ 0x45

@[simp] theorem endsNumber_nil : EndsNumber [] := by
  intro c member
  exact absurd member (by simp)

theorem endsNumber_cons {c : CodePoint} {rest : Text} (digit : c.isAsciiDigit = false)
    (point : c ≠ 0x2E) (small : c ≠ 0x65) (capital : c ≠ 0x45) : EndsNumber (c :: rest) := by
  intro d member
  obtain rfl : c = d := by simpa using member
  exact ⟨digit, point, small, capital⟩

/-- The digits in front of what cannot go on with them. -/
theorem digitsOf_append {digits rest : Text} (all : ∀ c ∈ digits, c.isAsciiDigit = true)
    (ends : EndsNumber rest) : digitsOf (digits ++ rest) = digits := by
  unfold digitsOf
  rw [List.takeWhile_append_of_pos all]
  cases rest with
  | nil => simp
  | cons c others =>
      have last := (ends c (by simp)).1
      rw [List.takeWhile_cons_of_neg (by simp [last]), List.append_nil]

theorem wholePart_ofNat (n : Nat) {rest : Text} (ends : EndsNumber rest) :
    wholePart (Text.ofNat n ++ rest) = (Text.ofNat n).length := by
  have taken := digitsOf_append (Text.isAsciiDigit_of_mem_ofNat n) ends
  rcases Nat.eq_zero_or_pos n with rfl | positive
  · rfl
  · obtain ⟨d, others, low, high, digits⟩ := Text.head_ofNat positive
    have first : Text.digit d ≠ CodePoint.ofChar '0' := by
      intro equal
      have := congrArg Fin.val equal
      rw [Text.val_digit high] at this
      have zero : (CodePoint.ofChar '0').val = 0x30 := by decide
      omega
    rw [digits] at taken ⊢
    rw [List.cons_append, wholePart, if_neg first, ← List.cons_append, taken]

theorem fractionPart_eq_zero {rest : Text} (ends : EndsNumber rest) : fractionPart rest = 0 := by
  cases rest with
  | nil => rfl
  | cons c others =>
      have point := (ends c (by simp)).2.1
      rw [fractionPart, if_neg (show ¬ c = CodePoint.ofChar '.' from point)]

theorem exponentPart?_eq_none {rest : Text} (ends : EndsNumber rest) :
    exponentPart? rest = none := by
  cases rest with
  | nil => rfl
  | cons c others =>
      obtain ⟨_, _, small, capital⟩ := ends c (by simp)
      rw [exponentPart?, if_neg]
      rintro (equal | equal)
      · exact small equal
      · exact capital equal

/-- The value of the digits of a number is the number. -/
theorem valueOf_ofNat (n : Nat) : valueOf (Text.ofNat n) = n := Decimal.ofDigits_ofNat n

/-- The reader takes the digits of a number for it. -/
theorem number_ofNat {n : Nat} (short : Decimal.isLong n = false) (p : Nat) {rest : Text}
    (ends : EndsNumber rest) :
    number ⟨p, Text.ofNat n ++ rest⟩ = .ok (.int n, ⟨p + (Text.ofNat n).length, rest⟩) := by
  have count := Decimal.isLong_eq_false.mp short
  have some : (Text.ofNat n).length ≠ 0 := by simpa using Text.ofNat_ne_nil n
  have unsigned : (Cursor.here? ⟨p, Text.ofNat n ++ rest⟩ == .some (CodePoint.ofChar '-')) =
      false := by
    cases digits : Text.ofNat n with
    | nil => exact absurd digits (Text.ofNat_ne_nil n)
    | cons c others =>
        have digit := Text.isAsciiDigit_of_mem_ofNat n c (by rw [digits]; exact List.mem_cons_self)
        simp only [Cursor.here?, List.cons_append, List.head?_cons, Option.some_beq_some,
          beq_eq_false_iff_ne, ne_eq]
        rintro rfl
        exact absurd digit (by decide)
  unfold number
  simp only [unsigned, Bool.false_eq_true, if_false, wholePart_ofNat n ends, some,
    List.drop_left, fractionPart_eq_zero ends, if_true, exponentPart?_eq_none ends,
    List.take_left, valueOf_ofNat, Nat.zero_add, Nat.add_zero]
  rw [if_neg (by simpa using count)]
  simp [Cursor.advance]

/-- The reader takes the digits of a number behind a minus sign for the number below zero. -/
theorem number_neg {n : Nat} (short : Decimal.isLong n = false) (p : Nat) {rest : Text}
    (ends : EndsNumber rest) :
    number ⟨p, 0x2D :: (Text.ofNat n ++ rest)⟩ =
      .ok (.int (-n), ⟨p + (1 + (Text.ofNat n).length), rest⟩) := by
  have count := Decimal.isLong_eq_false.mp short
  have some : (Text.ofNat n).length ≠ 0 := by simpa using Text.ofNat_ne_nil n
  have signed : (Cursor.here? ⟨p, 0x2D :: (Text.ofNat n ++ rest)⟩ ==
      .some (CodePoint.ofChar '-')) = true := by
    simp only [Cursor.here?, List.head?_cons]
    decide
  unfold number
  simp only [signed, if_true, List.drop_succ_cons, List.drop_zero,
    wholePart_ofNat n ends, some, if_false, List.drop_left, fractionPart_eq_zero ends,
    exponentPart?_eq_none ends, List.take_left, valueOf_ofNat, Nat.add_zero]
  rw [if_neg (by simpa using count)]
  simp [Cursor.advance, Nat.add_comm 1, List.drop_succ_cons]

/-- The reader takes a written whole number for that number. -/
theorem number_ofInt {n : Int} (short : Decimal.isLong n = false) (p : Nat) {rest : Text}
    (ends : EndsNumber rest) :
    ∃ q, number ⟨p, Text.ofInt n ++ rest⟩ = .ok (.int n, ⟨q, rest⟩) := by
  cases n with
  | ofNat n => exact ⟨_, number_ofNat short p ends⟩
  | negSucc n =>
      have positive : Decimal.isLong ((n + 1 : Nat) : Int) = false := short
      exact ⟨_, number_neg positive p ends⟩

end ModulePackaging.Json.Reader
