import ModulePackaging.Proofs.Json.RoundTrip

/-!
# The limits of the reader

Besides defects the reader knows two refusals: for a number of too many digits, and for arrays and
objects nested too deeply. Either one is due to the text: a text that is refused so holds a run of
that many digits, or more opening brackets than the limit (`isDueTo_of_read`).
-/

namespace ModulePackaging.Json

/-- Whether a sign opens an array or an object. -/
def isOpening (c : CodePoint) : Bool := c == '[' || c == '\x7b'

/-- How many arrays and objects a text opens, at most. -/
def openings (t : Text) : Nat := t.countP isOpening

/-- A run of `n` digits in a text, or of more. -/
def HasDigits (n : Nat) (t : Text) : Prop :=
  ∃ digits : Text, digits <:+: t ∧ n ≤ digits.length ∧ ∀ c ∈ digits, c.isAsciiDigit = true

theorem HasDigits.mono {n : Nat} {t u : Text} (h : HasDigits n t) (inside : t <:+: u) :
    HasDigits n u := by
  obtain ⟨digits, within, rest⟩ := h
  exact ⟨digits, within.trans inside, rest⟩

theorem HasDigits.of_le {m n : Nat} {t : Text} (h : HasDigits n t) (le : m ≤ n) :
    HasDigits m t := by
  obtain ⟨digits, within, long, all⟩ := h
  exact ⟨digits, within, le.trans long, all⟩

namespace Reader

variable {α β : Type} {depth : Nat} {t u : Text}

/-- A step that starts in front of a text, when `depth` more arrays and objects may be opened: it
ends in front of some of the text, or its refusal is due to the text. -/
def Within (depth : Nat) (t : Text) : Except Stop (Found α) → Prop
  | .ok (_, next) => next.rest <:+ t
  | .error (.defect _ _) => True
  | .error (.tooLong n) => Decimal.digitLimit < n ∧ HasDigits n t
  | .error (.tooDeep _) => depth < openings t

namespace Within

/-- A step that starts further on is one from the start. -/
theorem mono {step : Except Stop (Found α)} (h : Within depth t step) (later : t <:+ u) :
    Within depth u step := by
  match step, h with
  | .ok (_, _), h => exact h.trans later
  | .error (.defect _ _), _ => trivial
  | .error (.tooLong _), h => exact ⟨h.1, h.2.mono later.isInfix⟩
  | .error (.tooDeep _), h => exact h.trans_le later.sublist.countP_le

theorem bind {first : Except Stop (Found α)} {second : Found α → Except Stop (Found β)}
    (h : Within depth t first) (onward : ∀ a next, Within depth next.rest (second (a, next))) :
    Within depth t (first >>= second) := by
  match first, h with
  | .ok (a, next), h => exact (onward a next).mono h
  | .error (.defect _ _), _ => trivial
  | .error (.tooLong _), h => exact h
  | .error (.tooDeep _), h => exact h

end Within

theorem advance_suffix (cursor : Cursor) (n : Nat) : (cursor.advance n).rest <:+ cursor.rest :=
  List.drop_suffix n cursor.rest

theorem skipSpace_suffix (cursor : Cursor) : (skipSpace cursor).rest <:+ cursor.rest :=
  advance_suffix cursor _

/-! ## Tokens -/

theorem within_unicodeEscape (cursor : Cursor) :
    Within depth cursor.rest (unicodeEscape cursor) := by
  unfold unicodeEscape
  split
  · trivial
  · simp only
    split
    · split
      · trivial
      · split
        · exact (advance_suffix _ 6).trans (advance_suffix cursor 4)
        · exact advance_suffix cursor 4
    · exact advance_suffix cursor 4

theorem within_stringFrom (start fuel : Nat) (read : Text) (cursor : Cursor) :
    Within depth cursor.rest (stringFrom start fuel read cursor) := by
  induction fuel generalizing read cursor with
  | zero => trivial
  | succ fuel ih =>
      rw [stringFrom]
      split
      · trivial
      · rename_i c rest _
        split
        · exact advance_suffix cursor 1
        · split
          · split
            · trivial
            · split
              · exact ((within_unicodeEscape _).bind fun _ next => ih _ next).mono
                  (advance_suffix cursor 2)
              · split
                · exact (ih _ _).mono (advance_suffix cursor 2)
                · trivial
          · split
            · trivial
            · exact (ih _ _).mono (advance_suffix cursor 1)

theorem within_string (cursor : Cursor) : Within depth cursor.rest (string cursor) :=
  (within_stringFrom _ _ _ _).mono (advance_suffix cursor 1)

/-- The digits in front of a text are a run of digits in it. -/
theorem hasDigits_wholePart (t : Text) (some : 1 < wholePart t) : HasDigits (wholePart t) t := by
  cases t with
  | nil => exact absurd some (by decide)
  | cons c rest =>
      rw [wholePart] at some ⊢
      split
      · rename_i zero
        rw [if_pos zero] at some
        exact absurd some (by decide)
      · exact ⟨digitsOf (c :: rest), (List.takeWhile_prefix _).isInfix, Nat.le_refl _,
          fun d inside => List.mem_takeWhile_imp inside⟩

theorem within_number (cursor : Cursor) : Within depth cursor.rest (number cursor) := by
  have behind : (if cursor.here? == some (CodePoint.ofChar '-') then cursor.rest.drop 1
      else cursor.rest) <:+ cursor.rest := by
    split
    · exact List.drop_suffix 1 cursor.rest
    · exact List.suffix_refl _
  unfold number
  simp only
  generalize (if cursor.here? == some (CodePoint.ofChar '-') then cursor.rest.drop 1
    else cursor.rest) = unsigned at behind ⊢
  by_cases none : wholePart unsigned = 0
  · rw [if_pos none]
    trivial
  · rw [if_neg none]
    split
    · by_cases long : wholePart unsigned > Decimal.digitLimit
      · rw [if_pos long]
        have several : 1 < wholePart unsigned := Nat.lt_trans (by decide) long
        exact ⟨long, (hasDigits_wholePart unsigned several).mono behind.isInfix⟩
      · rw [if_neg long]
        exact advance_suffix cursor _
    · exact advance_suffix cursor _

theorem within_plain (cursor : Cursor) : Within depth cursor.rest (plain cursor) := by
  unfold plain
  split
  · exact advance_suffix cursor _
  · exact within_number cursor

theorem within_key (cursor : Cursor) : Within depth cursor.rest (key cursor) := by
  unfold key
  split
  · refine (within_string cursor).bind fun name next => ?_
    simp only
    split
    · exact (skipSpace_suffix _).trans ((advance_suffix _ 1).trans (skipSpace_suffix next))
    · trivial
  · trivial

/-! ## Values -/

/-- A bracket that opens leaves room for one array or object less. -/
theorem openings_cons {c : CodePoint} (opens : isOpening c = true) (t : Text) :
    openings (c :: t) = openings t + 1 := List.countP_cons_of_pos opens

theorem Within.opened {c : CodePoint} {step : Except Stop (Found α)} (opens : isOpening c = true)
    (h : Within depth t step) : Within (depth + 1) (c :: t) step := by
  match step, h with
  | .ok (_, _), h => exact h.trans (List.suffix_cons c t)
  | .error (.defect _ _), _ => trivial
  | .error (.tooLong _), h => exact ⟨h.1, h.2.mono (List.suffix_cons c t).isInfix⟩
  | .error (.tooDeep _), h =>
      show depth + 1 < openings (c :: t)
      rw [openings_cons opens]
      exact Nat.succ_lt_succ h

/-- The readers of values, of objects and of arrays end within the text, if they have some fuel. -/
structure EndsWithin (fuel : Nat) : Prop where
  values : ∀ depth cursor, Within depth cursor.rest (value depth fuel cursor)
  objects : ∀ depth read cursor, Within depth cursor.rest (members depth fuel read cursor)
  arrays : ∀ depth read cursor, Within depth cursor.rest (items depth fuel read cursor)

namespace EndsWithin

variable {fuel : Nat}

/-- A value is a string, or what is behind a bracket if it may be opened, or is read in one go. -/
theorem value_succ (h : EndsWithin fuel) (depth : Nat) (cursor : Cursor) :
    Within depth cursor.rest (value depth (fuel + 1) cursor) := by
  obtain ⟨p, rest⟩ := cursor
  cases rest with
  | nil => trivial
  | cons c rest =>
      by_cases quote : c = 0x22
      · subst quote
        rw [value_string]
        exact (within_string _).bind fun _ next => List.suffix_refl next.rest
      by_cases brace : c = 0x7B
      · subst brace
        cases depth with
        | zero => exact Nat.lt_of_lt_of_eq (Nat.succ_pos _) (openings_cons rfl rest).symm
        | succ depth =>
            rw [value_object]
            refine Within.opened rfl ?_
            split
            · exact (advance_suffix _ 1).trans (skipSpace_suffix _)
            · exact (h.objects depth [] _).mono (skipSpace_suffix _)
      by_cases bracket : c = 0x5B
      · subst bracket
        cases depth with
        | zero => exact Nat.lt_of_lt_of_eq (Nat.succ_pos _) (openings_cons rfl rest).symm
        | succ depth =>
            rw [value_array]
            refine Within.opened rfl ?_
            split
            · exact (advance_suffix _ 1).trans (skipSpace_suffix _)
            · exact (h.arrays depth [] _).mono (skipSpace_suffix _)
      rw [value_plain quote brace bracket]
      exact within_plain _

theorem members_succ (h : EndsWithin fuel) (depth : Nat) (read : List (Text × Json))
    (cursor : Cursor) : Within depth cursor.rest (members depth (fuel + 1) read cursor) := by
  rw [members]
  refine (within_key cursor).bind fun name start => (h.values depth start).bind fun v next => ?_
  simp only
  split
  · exact (advance_suffix _ 1).trans (skipSpace_suffix next)
  · split
    · exact (h.objects depth _ _).mono
        ((skipSpace_suffix _).trans ((advance_suffix _ 1).trans (skipSpace_suffix next)))
    · trivial

theorem items_succ (h : EndsWithin fuel) (depth : Nat) (read : List Json) (cursor : Cursor) :
    Within depth cursor.rest (items depth (fuel + 1) read cursor) := by
  rw [items]
  refine (h.values depth cursor).bind fun v next => ?_
  simp only
  split
  · exact (advance_suffix _ 1).trans (skipSpace_suffix next)
  · split
    · exact (h.arrays depth _ _).mono
        ((skipSpace_suffix _).trans ((advance_suffix _ 1).trans (skipSpace_suffix next)))
    · trivial

end EndsWithin

/-- Whatever fuel the readers have, they end within the text: by induction on the fuel, as they call
each other with less of it. -/
theorem endsWithin (fuel : Nat) : EndsWithin fuel := by
  induction fuel with
  | zero => exact ⟨fun _ _ => trivial, fun _ _ _ => trivial, fun _ _ _ => trivial⟩
  | succ fuel ih => exact ⟨ih.value_succ, ih.members_succ, ih.items_succ⟩

end Reader

/-- What a refusal that is no defect says of the text. -/
def ReadError.IsDueTo (t : Text) : ReadError → Prop
  | .defect .. => True
  | .tooLong n => Decimal.digitLimit < n ∧ HasDigits n t
  | .tooDeep _ => nestingLimit < openings t

/-- A limit of the reader, which is no defect of the text. -/
def ReadError.IsLimit : ReadError → Prop
  | .defect .. => False
  | .tooLong _ | .tooDeep _ => True

/-- A text is refused only for what is in it. -/
theorem isDueTo_of_read {t : Text} {e : ReadError} (h : read t = .error e) : e.IsDueTo t := by
  obtain ⟨stop, refused, rfl⟩ := mapError_eq_error.mp h
  unfold Reader.document at refused
  split at refused
  · obtain rfl := Except.error.inj refused
    trivial
  · have start := ((Reader.endsWithin (2 * t.length + 2)).values nestingLimit
      (Reader.skipSpace ⟨0, t⟩)).mono (Reader.skipSpace_suffix ⟨0, t⟩)
    rcases bind_eq_error.mp refused with first | ⟨⟨v, next⟩, _, behind⟩
    · rw [first] at start
      cases stop with
      | defect what position => trivial
      | tooLong n => exact start
      | tooDeep container => exact start
    · simp only at behind
      split at behind
      · exact absurd behind (by simp)
      · obtain rfl := Except.error.inj behind
        trivial

end ModulePackaging.Json
