import ModulePackaging.Decimal.Whole
import ModulePackaging.Power
import ModulePackaging.Proofs.Outcomes

/-!
# Decimal digits of numbers

The digits that a number is written with: ASCII digits without a leading zero, whose value is the
number again, and as many as the powers of ten below it.
-/

namespace ModulePackaging

theorem CodePoint.val_ofNat {n : Nat} (h : n < 0x110000) : (CodePoint.ofNat n).val = n := by
  rw [ofNat, dif_pos h]

namespace Text

/-- The digit of a number below ten. -/
def digit (d : Nat) : CodePoint := CodePoint.ofNat (0x30 + d)

theorem val_digit {d : Nat} (h : d < 10) : (digit d).val = 0x30 + d :=
  CodePoint.val_ofNat (by omega)

theorem ofChar_digitChar {d : Nat} (h : d < 10) : CodePoint.ofChar (Nat.digitChar d) = digit d := by
  have all : ∀ d : Fin 10, CodePoint.ofChar (Nat.digitChar d) = digit d := by decide
  exact all ⟨d, h⟩

/-- A number below ten has one digit. -/
theorem ofNat_of_lt {n : Nat} (h : n < 10) : ofNat n = [digit n] := by
  unfold ofNat ofString
  rw [Nat.toList_repr, Nat.toDigits_of_lt_base h, List.map_singleton, ofChar_digitChar h]

/-- A larger number has its last digit behind the others. -/
theorem ofNat_of_le {n : Nat} (h : 10 ≤ n) : ofNat n = ofNat (n / 10) ++ [digit (n % 10)] := by
  unfold ofNat ofString
  rw [Nat.toList_repr, Nat.toDigits_of_base_le (by decide) h, List.map_append, List.map_singleton,
    ofChar_digitChar (by omega), Nat.toList_repr]

theorem ofNat_ne_nil (n : Nat) : ofNat n ≠ [] := by
  by_cases h : n < 10
  · rw [ofNat_of_lt h]
    exact List.cons_ne_nil _ _
  · rw [ofNat_of_le (by omega)]
    exact List.append_ne_nil_of_right_ne_nil _ (List.cons_ne_nil _ _)

theorem isAsciiDigit_digit {d : Nat} (h : d < 10) : (digit d).isAsciiDigit = true := by
  simp only [CodePoint.isAsciiDigit, val_digit h, Bool.and_eq_true, decide_eq_true_eq]
  omega

/-- A number is written with ASCII digits only. -/
theorem isAsciiDigit_of_mem_ofNat (n : Nat) : ∀ c ∈ ofNat n, c.isAsciiDigit = true := by
  induction n using Nat.strongRecOn with
  | _ n ih =>
      by_cases h : n < 10
      · rw [ofNat_of_lt h]
        intro c member
        rw [List.mem_singleton.mp member]
        exact isAsciiDigit_digit h
      · rw [ofNat_of_le (by omega)]
        intro c member
        rcases List.mem_append.mp member with member | member
        · exact ih (n / 10) (by omega) c member
        · rw [List.mem_singleton.mp member]
          exact isAsciiDigit_digit (by omega)

/-- How many digits a number has. -/
theorem length_ofNat_le_iff {n k : Nat} (h : 0 < k) : (ofNat n).length ≤ k ↔ n < 10 ^ k := by
  unfold ofNat ofString
  rw [List.length_map, Nat.toList_repr]
  exact Nat.length_toDigits_le_iff (by decide) h

/-- The first digit of a number is no zero, unless the number is zero. -/
theorem head_ofNat {n : Nat} (h : 0 < n) :
    ∃ d rest, 0 < d ∧ d < 10 ∧ ofNat n = digit d :: rest := by
  induction n using Nat.strongRecOn with
  | _ n ih =>
      by_cases small : n < 10
      · exact ⟨n, [], h, small, ofNat_of_lt small⟩
      · obtain ⟨d, rest, positive, below, first⟩ := ih (n / 10) (by omega) (by omega)
        refine ⟨d, rest ++ [digit (n % 10)], positive, below, ?_⟩
        rw [ofNat_of_le (by omega), first, List.cons_append]

end Text

/-- The value of a digit is its distance from the zero. -/
theorem CodePoint.decimalValue?_of_isAsciiDigit {c : CodePoint} (h : c.isAsciiDigit = true) :
    c.decimalValue? = some (c.val - 0x30) := by
  simp only [isAsciiDigit, Bool.and_eq_true, decide_eq_true_eq] at h
  unfold decimalValue?
  rw [if_pos (by omega), if_pos h]

theorem CodePoint.isDecimal_of_isAsciiDigit {c : CodePoint} (h : c.isAsciiDigit = true) :
    c.isDecimal = true := by
  rw [isDecimal, decimalValue?_of_isAsciiDigit h, Option.isSome_some]

theorem CodePoint.isDigit_of_isAsciiDigit {c : CodePoint} (h : c.isAsciiDigit = true) :
    c.isDigit = true := by
  rw [isDigit, isDecimal_of_isAsciiDigit h, Bool.true_or]

theorem CodePoint.decimalValue?_lt {c : CodePoint} {d : Nat} (h : c.decimalValue? = some d) : d < 10 := by
  unfold decimalValue? at h
  split at h
  · split at h
    · injection h with h
      omega
    · exact absurd h (by simp)
  · obtain ⟨z, found, rfl⟩ := Option.map_eq_some_iff.mp h
    have inside := List.find?_some found
    simp only [Bool.and_eq_true, decide_eq_true_eq] at inside
    omega

/-- What stands between the space and the end of ASCII is no blank. -/
theorem CodePoint.isBlank_of_printing {c : CodePoint} (low : 0x20 < c.val) (high : c.val < 0x80) :
    c.isBlank = false := by
  have apart : (blanks.all fun r => r.last ≤ 0x20 || 0x80 ≤ r.first) = true := by decide
  rw [isBlank, isIn, List.any_eq_false]
  intro r blank
  have far := List.all_eq_true.mp apart r blank
  simp only [Bool.or_eq_true, decide_eq_true_eq, Bool.and_eq_true] at far ⊢
  omega

/-! ## Digits of all scripts -/

namespace CodePoint

/-- A decimal digit is in the run of ten behind one of the zeros. -/
theorem exists_zero_of_isDecimal {c : CodePoint} (h : c.isDecimal = true) :
    ∃ z ∈ zeros, z ≤ c.val ∧ c.val ≤ z + 9 := by
  unfold isDecimal decimalValue? at h
  split at h
  · split at h
    · exact ⟨0x30, by decide, by omega⟩
    · exact absurd h (by decide)
  · rw [Option.isSome_map] at h
    obtain ⟨z, found⟩ := Option.isSome_iff_exists.mp h
    have inside := List.find?_some found
    simp only [Bool.and_eq_true, decide_eq_true_eq] at inside
    exact ⟨z, List.mem_of_find?_eq_some found, inside⟩

/-- A code point outside all runs is no decimal digit. -/
theorem ne_of_isDecimal {c d : CodePoint} (h : c.isDecimal = true)
    (out : (zeros.all fun z => d.val < z || z + 9 < d.val) = true) : c ≠ d := by
  rintro rfl
  obtain ⟨z, member, low, high⟩ := exists_zero_of_isDecimal h
  have apart := List.all_eq_true.mp out z member
  simp only [Bool.or_eq_true, decide_eq_true_eq] at apart
  omega

/-- No decimal digit is a blank. -/
theorem isBlank_of_isDecimal {c : CodePoint} (h : c.isDecimal = true) : c.isBlank = false := by
  obtain ⟨z, member, low, high⟩ := exists_zero_of_isDecimal h
  have apart : (zeros.all fun z => blanks.all fun r => z + 9 < r.first || r.last < z) = true := by
    decide +kernel
  rw [isBlank, isIn, List.any_eq_false]
  intro r blank
  have far := List.all_eq_true.mp (List.all_eq_true.mp apart z member) r blank
  simp only [Bool.or_eq_true, decide_eq_true_eq, Bool.and_eq_true] at far ⊢
  omega

end CodePoint

namespace Text

/-- Decimal digits of any script, at least one. -/
def IsNumeral (t : Text) : Prop := t ≠ [] ∧ ∀ c ∈ t, c.isDecimal = true

-- through the list: there are too many code points to go through
instance (t : Text) : Decidable t.IsNumeral :=
  @instDecidableAnd _ _ _ (List.decidableBAll _ t)

/-- The number that decimal digits of any script stand for. -/
def value (t : Text) : Nat := Decimal.ofDigits (t.map fun c => c.decimalValue?.getD 0)

theorem value_of_digits {t : Text} (digits : ∀ c ∈ t, c.isAsciiDigit = true) :
    t.value = Decimal.ofDigits (t.map fun c => c.val - 0x30) := by
  have same : ∀ c ∈ t, c.decimalValue?.getD 0 = c.val - 0x30 := by
    intro c member
    rw [CodePoint.decimalValue?_of_isAsciiDigit (digits c member)]
    rfl
  rw [value, List.map_congr_left same]

end Text

namespace Decimal

theorem ofDigits_concat (digits : List Nat) (d : Nat) :
    ofDigits (digits ++ [d]) = 10 * ofDigits digits + d := by
  simp [ofDigits]

/-- The digits of a number have the number as their value. -/
theorem ofDigits_ofNat (n : Nat) : ofDigits ((Text.ofNat n).map fun c => c.val - 0x30) = n := by
  induction n using Nat.strongRecOn with
  | _ n ih =>
      by_cases h : n < 10
      · rw [Text.ofNat_of_lt h, List.map_singleton, Text.val_digit h]
        show 10 * 0 + (0x30 + n - 0x30) = n
        omega
      · rw [Text.ofNat_of_le (by omega), List.map_append, List.map_singleton, ofDigits_concat,
          ih (n / 10) (by omega), Text.val_digit (by omega)]
        omega

/-- A number is short enough to be written exactly when it has at most the allowed digits. -/
theorem isLong_eq_false {n : Int} : isLong n = false ↔ (Text.ofNat n.natAbs).length ≤ digitLimit := by
  rw [isLong, decide_eq_false_iff_not, Nat.not_lt]

theorem ofDigits_lt {digits : List Nat} (small : ∀ d ∈ digits, d < 10) :
    ofDigits digits < 10 ^ digits.length := by
  rw [← List.reverse_reverse digits] at small ⊢
  generalize digits.reverse = reversed at small ⊢
  induction reversed with
  | nil => decide
  | cons d rest ih =>
      rw [List.reverse_cons] at small ⊢
      have last := small d (by simp)
      have others := ih fun e member => small e (by simp [List.mem_reverse.mp member])
      rw [ofDigits_concat, List.length_append, List.length_singleton, Nat.pow_succ]
      omega

/-- A number of few digits is short. -/
theorem isLong_ofDigits {digits : List Nat} (small : ∀ d ∈ digits, d < 10)
    (few : digits.length ≤ digitLimit) : isLong (ofDigits digits) = false := by
  apply isLong_eq_false.mpr
  rw [Int.natAbs_natCast, Text.length_ofNat_le_iff (by decide)]
  exact Nat.lt_of_lt_of_le (ofDigits_lt small) (Nat.pow_le_pow_right (by decide) few)

/-- What a number is written as is read as that number. -/
theorem natural_ofNat {n : Nat} (short : isLong n = false) :
    natural (Text.ofNat n) = .ok n := by
  have values : (Text.ofNat n).mapM CodePoint.decimalValue? =
      some ((Text.ofNat n).map fun c => c.val - 0x30) :=
    mapM_eq_pure fun c member =>
      CodePoint.decimalValue?_of_isAsciiDigit (Text.isAsciiDigit_of_mem_ofNat n c member)
  have count := isLong_eq_false.mp short
  unfold natural
  rw [values]
  cases digits : (Text.ofNat n).map fun c => c.val - 0x30 with
  | nil => exact absurd (List.map_eq_nil_iff.mp digits) (Text.ofNat_ne_nil n)
  | cons d rest =>
      have size := congrArg List.length digits
      rw [List.length_map] at size
      simp only [Int.natAbs_natCast] at count
      simp only
      rw [if_neg (by omega), ← digits, ofDigits_ofNat]

/-- Digits of any script are taken one by one, up to what stands behind them. -/
theorem takeDigits?_append {t : Text} (digits : ∀ c ∈ t, c.isDecimal = true) (read : List Nat)
    (rest : Text) : takeDigits? false read (t ++ rest) =
      takeDigits? false ((t.map fun c => c.decimalValue?.getD 0).reverse ++ read) rest := by
  induction t generalizing read with
  | nil => rfl
  | cons c more ih =>
      obtain ⟨first, others⟩ := List.forall_mem_cons.mp digits
      obtain ⟨d, value⟩ := Option.isSome_iff_exists.mp first
      rw [List.cons_append, takeDigits?, value]
      show takeDigits? false (d :: read) (more ++ rest) = _
      rw [ih others, List.map_cons, value, List.reverse_cons, List.append_assoc]
      rfl

/-- A numeral is read as its value if it is short and nothing but blanks is behind it, and refused
otherwise. -/
theorem whole_append {t rest : Text} (numeral : t.IsNumeral)
    (stops : ∀ read, takeDigits? false read rest = .some (read.reverse, rest)) :
    whole (t ++ rest) =
      if t.length > digitLimit then .error (.tooLong t.length)
      else if rest.all isNumberBlank then .ok t.value else .error (.notWhole (t ++ rest)) := by
  obtain ⟨some, digits⟩ := numeral
  obtain ⟨c, more, rfl⟩ := List.exists_cons_of_ne_nil some
  have first : c.isDecimal = true := digits c List.mem_cons_self
  -- a digit is neither a blank nor a sign, so all that is taken off in front is nothing
  have unblank : (c :: more ++ rest).dropWhile isNumberBlank = c :: more ++ rest := by
    have blank : ¬ isNumberBlank c = true := by
      simp [isNumberBlank, CodePoint.isBlank_of_isDecimal first]
    rw [List.cons_append, List.dropWhile_cons_of_neg blank]
  have unsigned : takeSign (c :: more ++ rest) = (false, c :: more ++ rest) := by
    rw [List.cons_append, takeSign, if_neg (CodePoint.ne_of_isDecimal first (by decide)),
      if_neg (CodePoint.ne_of_isDecimal first (by decide))]
  have taken : takeDigits? false [] (c :: more ++ rest) =
      .some ((c :: more).map fun c => c.decimalValue?.getD 0, rest) := by
    rw [takeDigits?_append digits, stops, List.append_nil, List.reverse_reverse]
  unfold whole
  rw [unblank, unsigned]
  simp only [taken, List.map_cons, List.length_cons, List.length_map]
  rfl

/-- A numeral by itself is read as its value if it is short. -/
theorem whole_numeral {t : Text} (numeral : t.IsNumeral) :
    whole t = if t.length > digitLimit then .error (.tooLong t.length) else .ok t.value := by
  have read : whole (t ++ []) = _ := whole_append numeral fun _ => rfl
  rwa [List.append_nil] at read

/-- A natural number is read back as a whole number. -/
theorem whole_ofNat {n : Nat} (short : isLong n = false) : whole (Text.ofNat n) = .ok (n : Int) := by
  have digits := Text.isAsciiDigit_of_mem_ofNat n
  have count := isLong_eq_false.mp short
  rw [Int.natAbs_natCast] at count
  have value : (Text.ofNat n).value = n := by
    rw [Text.value_of_digits digits, ofDigits_ofNat]
  have numeral : (Text.ofNat n).IsNumeral := by
    refine ⟨Text.ofNat_ne_nil n, fun c member => ?_⟩
    exact CodePoint.isDecimal_of_isAsciiDigit (digits c member)
  rw [whole_numeral numeral, if_neg (by omega), value]

/-- What is taken from a text are digits. -/
theorem takeDigits?_lt {t rest : Text} {underscore : Bool} {read digits : List Nat}
    (small : ∀ d ∈ read, d < 10) (h : takeDigits? underscore read t = some (digits, rest)) :
    ∀ d ∈ digits, d < 10 := by
  induction t generalizing underscore read with
  | nil =>
      rw [takeDigits?] at h
      split at h
      · exact absurd h (by simp)
      · obtain ⟨rfl, _⟩ := Prod.mk.inj (Option.some.inj h)
        exact fun d member => small d (List.mem_reverse.mp member)
  | cons c others ih =>
      rw [takeDigits?] at h
      split at h
      · rename_i value
        exact ih (List.forall_mem_cons.mpr ⟨CodePoint.decimalValue?_lt value, small⟩) h
      · split at h
        · split at h
          · exact absurd h (by simp)
          · exact ih small h
        · split at h
          · exact absurd h (by simp)
          · obtain ⟨rfl, _⟩ := Prod.mk.inj (Option.some.inj h)
            exact fun d member => small d (List.mem_reverse.mp member)

/-- A whole number that was read can be written. -/
theorem isLong_of_whole {t : Text} {n : Int} (h : whole t = .ok n) : isLong n = false := by
  unfold whole at h
  simp only at h
  split at h
  · exact absurd h (by simp)
  · exact absurd h (by simp)
  · rename_i digits rest _ taken
    split at h
    · exact absurd h (by simp)
    · rename_i few
      split at h
      · obtain rfl := Except.ok.inj h
        have short := isLong_ofDigits (takeDigits?_lt (List.forall_mem_nil _) taken) (by omega)
        split
        · rwa [isLong, Int.natAbs_neg]
        · exact short
      · exact absurd h (by simp)

end Decimal

namespace Text

/-- Numbers that are written alike are the same. -/
theorem ofNat_inj {n m : Nat} (same : ofNat n = ofNat m) : n = m := by
  rw [← Decimal.ofDigits_ofNat n, same, Decimal.ofDigits_ofNat]

theorem ofInt_inj {n m : Int} (same : ofInt n = ofInt m) : n = m := by
  -- a number without a minus sign does not start with one
  have unsigned (j k : Nat) : ofNat j ≠ "-" ++ ofNat k := by
    intro signed
    have minus : ('-' : CodePoint) ∈ ofNat j := signed ▸ List.mem_cons_self
    exact absurd (isAsciiDigit_of_mem_ofNat j _ minus) (by decide)
  cases n with
  | ofNat j =>
      cases m with
      | ofNat k => exact congrArg Int.ofNat (ofNat_inj same)
      | negSucc k => exact absurd same (unsigned j (k + 1))
  | negSucc j =>
      cases m with
      | ofNat k => exact absurd same.symm (unsigned k (j + 1))
      | negSucc k =>
          have digits : j + 1 = k + 1 := ofNat_inj (List.append_cancel_left same)
          exact congrArg Int.negSucc (Nat.succ.inj digits)

end Text

end ModulePackaging
