import Mathlib.Data.List.TakeWhile
import ModulePackaging.Fault
import ModulePackaging.Proofs.Json.Numbers
import ModulePackaging.Proofs.Json.Strings
import ModulePackaging.Proofs.Sorting

/-!
# JSON round trip

The reader takes the canonical text of a value for that value with the members of its objects in key
order. The values meant are those that the writer takes (`Storable`): without fractions and without
numbers of too many digits, each key of an object once, nested no deeper than the reader follows.
-/

namespace ModulePackaging

namespace Members

/-- A key that is new comes last. -/
theorem put_of_notMem {key : Text} {value : Json} {members : Members}
    (new : key ∉ members.map Prod.fst) : members.put key value = members ++ [(key, value)] := by
  induction members with
  | nil => rfl
  | cons m rest ih =>
      simp only [List.map_cons, List.mem_cons, not_or] at new
      rw [Members.put, if_neg (fun equal => new.1 equal.symm), ih new.2, List.cons_append]

/-- Members of different keys stay as they are when they are set one after the other. -/
theorem ofPairs_of_nodup {pairs : List (Text × Json)}
    (distinct : (pairs.map Prod.fst).Nodup) : ofPairs pairs = pairs := by
  have run : ∀ (pairs set : List (Text × Json)), ((set ++ pairs).map Prod.fst).Nodup →
      pairs.foldl (fun (members : Members) m => members.put m.1 m.2) set = set ++ pairs := by
    intro pairs
    induction pairs with
    | nil => simp
    | cons m rest ih =>
        intro set distinct
        have new : m.1 ∉ set.map Prod.fst := by
          rw [List.map_append, List.nodup_append] at distinct
          intro member
          exact distinct.2.2 _ member _ (by simp) rfl
        rw [List.foldl_cons]
        show rest.foldl _ (put m.1 m.2 set) = _
        rw [put_of_notMem new, ih _ (by simpa using distinct)]
        simp
  exact run pairs [] distinct

end Members

namespace Json

/-- Values that canonical texts hold faithfully, with arrays and objects nested at most `depth`
deep. -/
inductive Storable : Nat → Json → Prop
  | null {depth} : Storable depth .null
  | bool {depth} (b : Bool) : Storable depth (.bool b)
  | int {depth} {n : Int} : Decimal.isLong n = false → Storable depth (.int n)
  | str {depth} (t : Text) : Storable depth (.str t)
  | arr {depth} {items : List Json} :
      (∀ v ∈ items, Storable depth v) → Storable (depth + 1) (.arr items)
  | obj {depth} {members : List (Text × Json)} : (members.map Prod.fst).Nodup →
      (∀ m ∈ members, Storable depth m.2) → Storable (depth + 1) (.obj members)

mutual

/-- A value with the members of its objects in key order. -/
def inOrder : Json → Json
  | .null => .null
  | .bool b => .bool b
  | .int n => .int n
  | .float x => .float x
  | .str t => .str t
  | .arr items => .arr (itemsInOrder items)
  | .obj members => .obj (Style.inKeyOrder (membersInOrder members))

/-- The items of an array, each in order. -/
def itemsInOrder : List Json → List Json
  | [] => []
  | item :: rest => item.inOrder :: itemsInOrder rest

/-- The members of an object, the value of each in order. -/
def membersInOrder : List (Text × Json) → List (Text × Json)
  | [] => []
  | (key, item) :: rest => (key, item.inOrder) :: membersInOrder rest

end

theorem itemsInOrder_eq (items : List Json) : itemsInOrder items = items.map inOrder := by
  induction items with
  | nil => rfl
  | cons item rest ih => rw [itemsInOrder, ih, List.map_cons]

theorem membersInOrder_eq (members : List (Text × Json)) :
    membersInOrder members = members.map fun m => (m.1, m.2.inOrder) := by
  induction members with
  | nil => rfl
  | cons m rest ih => rw [membersInOrder, ih, List.map_cons]

namespace Style

variable (style : Style)

theorem writeItems_eq (level : Nat) (items : List Json) :
    style.writeItems level items = items.map (style.write level) := by
  induction items with
  | nil => rfl
  | cons item rest ih => rw [writeItems, ih, List.map_cons]

theorem writeMembers_eq (level : Nat) (members : List (Text × Json)) :
    style.writeMembers level members = members.map fun m => (m.1, style.write level m.2) := by
  induction members with
  | nil => rfl
  | cons m rest ih => rw [writeMembers, ih, List.map_cons]

theorem inKeyOrder_map {α β : Type} (f : α → β) (members : List (Text × α)) :
    inKeyOrder (members.map fun m => (m.1, f m.2)) =
      (inKeyOrder members).map fun m => (m.1, f m.2) :=
  sortedBy_map _ _

@[simp] theorem mem_inKeyOrder {α : Type} {m : Text × α} {members : List (Text × α)} :
    m ∈ inKeyOrder members ↔ m ∈ members := mem_sortedBy

theorem inKeyOrder_ne_nil {α : Type} {members : List (Text × α)} (some : members ≠ []) :
    inKeyOrder members ≠ [] := by
  intro none
  have count := congrArg List.length none
  rw [inKeyOrder, length_sortedBy] at count
  exact some (List.eq_nil_of_length_eq_zero count)

theorem nodup_keys_inKeyOrder {α : Type} {members : List (Text × α)}
    (distinct : (members.map Prod.fst).Nodup) : ((inKeyOrder members).map Prod.fst).Nodup :=
  ((sortedBy_perm _ members).map Prod.fst).nodup_iff.mpr distinct

/-- Brackets stand around items with commas between them. -/
theorem bracketed_canonical (opening closing : CodePoint) (level : Nat) (items : List Text) :
    canonical.bracketed opening closing level items =
      opening :: (Text.joined [0x2C] items ++ [closing]) := by
  cases items with
  | nil => rfl
  | cons item rest => simp [bracketed, lineEnd, canonical]

/-- A member of an object as it is written. -/
def member (level : Nat) (m : Text × Json) : Text :=
  canonical.string m.1 ++ 0x3A :: canonical.write level m.2

theorem write_arr (level : Nat) (items : List Json) :
    canonical.write level (.arr items) =
      0x5B :: (Text.joined [0x2C] (items.map (canonical.write (level + 1))) ++ [0x5D]) := by
  rw [write, bracketed_canonical, writeItems_eq]

theorem write_obj (level : Nat) (members : List (Text × Json)) :
    canonical.write level (.obj members) =
      0x7B :: (Text.joined [0x2C] ((inKeyOrder members).map (member (level + 1))) ++ [0x7D]) := by
  rw [write, bracketed_canonical, writeMembers_eq, inKeyOrder_map, List.map_map]
  have colon : canonical.colon = [0x3A] := by decide
  congr 3
  refine List.map_congr_left fun m _ => ?_
  simp [member, colon]

end Style

/-! ## The first sign of a value -/

theorem Style.string_eq (t : Text) :
    Style.canonical.string t = 0x22 :: (t.flatMap escapeControls ++ [0x22]) := rfl

/-- A written number starts with a digit or a minus sign. -/
theorem ofInt_head (n : Int) :
    ∃ c others, Text.ofInt n = c :: others ∧ c.val < 0x80 ∧
      ∀ d : CodePoint, d.isAsciiDigit = false → d ≠ 0x2D → c ≠ d := by
  cases n with
  | negSucc n => exact ⟨0x2D, _, rfl, by decide, fun d _ other => other.symm⟩
  | ofNat n =>
      obtain ⟨c, others, digits⟩ := List.exists_cons_of_ne_nil (Text.ofNat_ne_nil n)
      have digit := Text.isAsciiDigit_of_mem_ofNat n c (by simp [digits])
      refine ⟨c, others, digits, ?_, ?_⟩
      · simp only [CodePoint.isAsciiDigit, Bool.and_eq_true, decide_eq_true_eq] at digit
        omega
      · rintro d none _ rfl
        rw [digit] at none
        exact absurd none (by decide)

/-- A written value starts with a sign that is no blank and closes no array. -/
theorem write_head {depth : Nat} {v : Json} (h : Storable depth v) (level : Nat) :
    ∃ c others, Style.canonical.write level v = c :: others ∧ Reader.isSpace c = false ∧
      c ≠ 0x5D ∧ c.val < 0x80 := by
  cases h with
  | null => exact ⟨0x6E, _, rfl, by decide, by decide, by decide⟩
  | bool b =>
      cases b with
      | false => exact ⟨0x66, _, rfl, by decide, by decide, by decide⟩
      | true => exact ⟨0x74, _, rfl, by decide, by decide, by decide⟩
  | @int _ n _ =>
      obtain ⟨c, others, form, low, first⟩ := ofInt_head n
      refine ⟨c, others, form, ?_, first 0x5D (by decide) (by decide), low⟩
      simp only [Reader.isSpace, Bool.or_eq_false_iff, beq_eq_false_iff_ne]
      exact ⟨⟨⟨first _ (by decide) (by decide), first _ (by decide) (by decide)⟩,
        first _ (by decide) (by decide)⟩, first _ (by decide) (by decide)⟩
  | str t => exact ⟨0x22, _, Style.string_eq t, by decide, by decide, by decide⟩
  | arr _ => exact ⟨0x5B, _, Style.write_arr level _, by decide, by decide, by decide⟩
  | obj _ _ => exact ⟨0x7B, _, Style.write_obj level _, by decide, by decide, by decide⟩

namespace Reader

theorem here_of_eq {c d : CodePoint} {p : Nat} {rest : Text} (same : c = d) :
    (Cursor.here? ⟨p, c :: rest⟩ == some d) = true := beq_iff_eq.mpr (congrArg some same)

theorem here_of_ne {c d : CodePoint} {p : Nat} {rest : Text} (other : c ≠ d) :
    ¬ (Cursor.here? ⟨p, c :: rest⟩ == some d) = true := fun same =>
  other (Option.some.inj (beq_iff_eq.mp same))

/-- There is nothing to skip in front of a sign. -/
theorem skipSpace_cons {c : CodePoint} (sign : isSpace c = false) (p : Nat) (rest : Text) :
    skipSpace ⟨p, c :: rest⟩ = ⟨p, c :: rest⟩ := by
  simp [skipSpace, Cursor.advance, sign]

theorem skipSpace_write {depth : Nat} {v : Json} (h : Storable depth v) (level p : Nat)
    (rest : Text) :
    skipSpace ⟨p, Style.canonical.write level v ++ rest⟩ =
      ⟨p, Style.canonical.write level v ++ rest⟩ := by
  obtain ⟨c, others, form, sign, _⟩ := write_head h level
  rw [form]
  exact skipSpace_cons sign p _

/-! ## Words and numbers -/

theorem words_eq : words = [
    ([0x6E, 0x75, 0x6C, 0x6C], .null), ([0x74, 0x72, 0x75, 0x65], .bool true),
    ([0x66, 0x61, 0x6C, 0x73, 0x65], .bool false), ([0x4E, 0x61, 0x4E], .float .nan),
    ([0x49, 0x6E, 0x66, 0x69, 0x6E, 0x69, 0x74, 0x79], .float (.infinite false)),
    ([0x2D, 0x49, 0x6E, 0x66, 0x69, 0x6E, 0x69, 0x74, 0x79], .float (.infinite true))] := rfl

/-- What starts with a digit, or with a minus sign in front of one, is no word. -/
theorem plain_eq_number {p : Nat} {text : Text}
    (no : ∀ word ∈ words.map Prod.fst, word.isPrefixOf text = false) :
    plain ⟨p, text⟩ = number ⟨p, text⟩ := by
  unfold plain
  split
  · rename_i word value found
    have starts := List.find?_some found
    change word.isPrefixOf text = true at starts
    rw [no word (List.mem_map_of_mem (List.mem_of_find?_eq_some found))] at starts
    exact absurd starts Bool.false_ne_true
  · rfl

theorem plain_ofInt {n : Int} (short : Decimal.isLong n = false) (p : Nat) {rest : Text}
    (ends : EndsNumber rest) :
    ∃ q, plain ⟨p, Text.ofInt n ++ rest⟩ = .ok (.int n, ⟨q, rest⟩) := by
  have nondigit : ∀ (k : Nat) (c : CodePoint) (others : Text), Text.ofNat k = c :: others →
      ∀ d : CodePoint, d.isAsciiDigit = false → (d == c) = false := by
    intro k c others digits d none
    have digit := Text.isAsciiDigit_of_mem_ofNat k c (by simp [digits])
    rw [beq_eq_false_iff_ne]
    rintro rfl
    rw [digit] at none
    exact absurd none (by decide)
  rw [plain_eq_number]
  · exact number_ofInt short p ends
  · cases n with
    | ofNat k =>
        obtain ⟨c, others, digits⟩ := List.exists_cons_of_ne_nil (Text.ofNat_ne_nil k)
        have no := nondigit k c others digits
        show ∀ word ∈ words.map Prod.fst, word.isPrefixOf (Text.ofNat k ++ rest) = false
        rw [digits, words_eq]
        simp [List.isPrefixOf, no 0x6E (by decide), no 0x74 (by decide), no 0x66 (by decide),
          no 0x4E (by decide), no 0x49 (by decide), no 0x2D (by decide)]
    | negSucc k =>
        obtain ⟨c, others, digits⟩ := List.exists_cons_of_ne_nil (Text.ofNat_ne_nil (k + 1))
        have no := nondigit (k + 1) c others digits
        show ∀ word ∈ words.map Prod.fst,
          word.isPrefixOf (0x2D :: (Text.ofNat (k + 1) ++ rest)) = false
        rw [digits, words_eq]
        simp [List.isPrefixOf, no 0x49 (by decide)]

/-! ## Arrays and objects -/

theorem endsNumber_comma (rest : Text) : EndsNumber (0x2C :: rest) :=
  endsNumber_cons (by decide) (by decide) (by decide) (by decide)

theorem endsNumber_bracket (rest : Text) : EndsNumber (0x5D :: rest) :=
  endsNumber_cons (by decide) (by decide) (by decide) (by decide)

theorem endsNumber_brace (rest : Text) : EndsNumber (0x7D :: rest) :=
  endsNumber_cons (by decide) (by decide) (by decide) (by decide)

/-- What is to be shown of a value: the reader takes its written form for it, whatever the level and
the place, if there is fuel for each sign and what follows is no part of a number. -/
def Reads (depth : Nat) (v : Json) : Prop :=
  ∀ (level fuel p : Nat) (rest : Text), (Style.canonical.write level v).length < fuel →
    EndsNumber rest →
    ∃ q, value depth fuel ⟨p, Style.canonical.write level v ++ rest⟩ = .ok (v.inOrder, ⟨q, rest⟩)

theorem joined_comma (piece : Text) (pieces : List Text) (more : pieces ≠ []) :
    Text.joined [0x2C] (piece :: pieces) = piece ++ 0x2C :: Text.joined [0x2C] pieces := by
  cases pieces with
  | nil => exact absurd rfl more
  | cons next others => simp [Text.joined]

/-- Pieces with commas between them start with the first piece. -/
theorem joined_head {α : Type} (piece : α → Text) (a : α) (others : List α) :
    ∃ onward, Text.joined [0x2C] ((a :: others).map piece) = piece a ++ onward := by
  cases others with
  | nil => exact ⟨[], by simp [Text.joined]⟩
  | cons b others => exact ⟨_, by rw [List.map_cons, joined_comma _ _ (by simp)]⟩

/-- Behind an item that is not the last one comes a comma, and no blank in front of the next. -/
theorem items_step {depth bound : Nat} {v w : Json} (others : List Json) (reads : Reads depth v)
    (next : Storable bound w) (level fuel p : Nat) (read : List Json) (rest : Text)
    (enough : (Style.canonical.write level v).length < fuel) :
    ∃ q, Reader.items depth (fuel + 1) read
      ⟨p, Text.joined [0x2C] ((v :: w :: others).map (Style.canonical.write level)) ++
        0x5D :: rest⟩ =
      Reader.items depth fuel (v.inOrder :: read)
        ⟨q, Text.joined [0x2C] ((w :: others).map (Style.canonical.write level)) ++ 0x5D :: rest⟩ := by
  obtain ⟨q, first⟩ := reads level fuel p
    (0x2C :: (Text.joined [0x2C] ((w :: others).map (Style.canonical.write level)) ++
      0x5D :: rest)) enough (endsNumber_comma _)
  refine ⟨q + 1, ?_⟩
  rw [List.map_cons, joined_comma _ _ (by simp), List.append_assoc, List.cons_append, Reader.items,
    first]
  simp only [bind, Except.bind]
  rw [skipSpace_cons (by decide), if_neg (here_of_ne (by decide)), if_pos (here_of_eq (by decide))]
  obtain ⟨onward, start⟩ := joined_head (Style.canonical.write level) w others
  have skipped : skipSpace (Cursor.advance ⟨q, 0x2C ::
      (Text.joined [0x2C] ((w :: others).map (Style.canonical.write level)) ++
        0x5D :: rest)⟩ 1) =
      ⟨q + 1, Text.joined [0x2C] ((w :: others).map (Style.canonical.write level)) ++
        0x5D :: rest⟩ := by
    simp only [Cursor.advance, List.drop_succ_cons, List.drop_zero]
    rw [start, List.append_assoc]
    exact skipSpace_write next level _ _
  rw [skipped]

/-- Behind the last item comes the bracket. -/
theorem items_last {depth : Nat} {v : Json} (reads : Reads depth v) (level fuel p : Nat)
    (read : List Json) (rest : Text) (enough : (Style.canonical.write level v).length < fuel) :
    ∃ q, Reader.items depth (fuel + 1) read ⟨p, Style.canonical.write level v ++ 0x5D :: rest⟩ =
      .ok (.arr (read.reverse ++ [v.inOrder]), ⟨q, rest⟩) := by
  obtain ⟨q, first⟩ := reads level fuel p (0x5D :: rest) enough (endsNumber_bracket rest)
  refine ⟨q + 1, ?_⟩
  rw [Reader.items, first]
  simp only [bind, Except.bind]
  rw [skipSpace_cons (by decide), if_pos (here_of_eq (by decide))]
  simp [Cursor.advance]

/-- The items of an array, one after the other. -/
theorem items_write {depth : Nat} : ∀ (items : List Json), items ≠ [] →
    (∀ v ∈ items, Storable depth v) → (∀ v ∈ items, Reads depth v) →
    ∀ (level fuel p : Nat) (read : List Json) (rest : Text),
    (Text.joined [0x2C] (items.map (Style.canonical.write level))).length + 1 < fuel →
    ∃ q, Reader.items depth fuel read
      ⟨p, Text.joined [0x2C] (items.map (Style.canonical.write level)) ++ 0x5D :: rest⟩ =
        .ok (.arr (read.reverse ++ items.map inOrder), ⟨q, rest⟩) := by
  intro items
  induction items with
  | nil => exact fun none => absurd rfl none
  | cons v others ih =>
      intro _ storable reads level fuel p read rest enough
      obtain ⟨fuel, rfl⟩ := Nat.exists_eq_add_one_of_ne_zero (show fuel ≠ 0 by omega)
      have readsFirst := reads v List.mem_cons_self
      cases others with
      | nil =>
          simp only [List.map_cons, List.map_nil, Text.joined] at enough ⊢
          exact items_last readsFirst level fuel p read rest (by omega)
      | cons w others =>
          obtain ⟨c, signs, form, _⟩ := write_head (storable v List.mem_cons_self) level
          have some := congrArg List.length form
          rw [List.length_cons] at some
          rw [List.map_cons, joined_comma _ _ (by simp)] at enough
          simp only [List.length_append, List.length_cons] at enough
          obtain ⟨q, step⟩ := items_step others readsFirst
            (storable w (List.mem_cons_of_mem _ List.mem_cons_self)) level fuel p read rest (by omega)
          obtain ⟨q', run⟩ := ih (List.cons_ne_nil _ _)
            (fun u member => storable u (List.mem_cons_of_mem _ member))
            (fun u member => reads u (List.mem_cons_of_mem _ member))
            level fuel q (v.inOrder :: read) rest (by omega)
          refine ⟨q', ?_⟩
          rw [step, run]
          simp

/-- A key with its colon, up to the value. -/
theorem key_write {depth : Nat} {v : Json} (h : Storable depth v) (level : Nat) (k : Text)
    (p : Nat) (rest : Text) :
    ∃ q, key ⟨p, Style.canonical.string k ++
      0x3A :: (Style.canonical.write level v ++ rest)⟩ =
        .ok (k, ⟨q, Style.canonical.write level v ++ rest⟩) := by
  obtain ⟨q, name⟩ := string_write k p (0x3A :: (Style.canonical.write level v ++ rest))
  refine ⟨q + 1, ?_⟩
  unfold key
  rw [if_pos (by simp only [Cursor.here?, Style.string_eq, List.cons_append, List.head?_cons]; decide),
    name]
  simp only [bind, Except.bind]
  rw [skipSpace_cons (by decide), if_pos (here_of_eq (by decide))]
  simp only [Cursor.advance, List.drop_succ_cons, List.drop_zero]
  rw [skipSpace_write h]

/-- Members with commas between them start with the quote of the first key. -/
theorem joined_member_head (level : Nat) (m : Text × Json) (others : List (Text × Json)) :
    ∃ onward, Text.joined [0x2C] ((m :: others).map (Style.member level)) = 0x22 :: onward := by
  obtain ⟨onward, start⟩ := joined_head (Style.member level) m others
  exact ⟨_, by rw [start, Style.member, Style.string_eq, List.cons_append, List.cons_append]⟩

/-- Behind a member that is not the last one comes a comma, and no blank in front of the next. -/
theorem members_step {depth bound : Nat} {m : Text × Json} (w : Text × Json)
    (others : List (Text × Json)) (storable : Storable bound m.2) (reads : Reads depth m.2)
    (level fuel p : Nat) (read : List (Text × Json)) (rest : Text)
    (enough : (Style.canonical.write level m.2).length < fuel) :
    ∃ q, Reader.members depth (fuel + 1) read
      ⟨p, Text.joined [0x2C] ((m :: w :: others).map (Style.member level)) ++ 0x7D :: rest⟩ =
      Reader.members depth fuel ((m.1, m.2.inOrder) :: read)
        ⟨q, Text.joined [0x2C] ((w :: others).map (Style.member level)) ++ 0x7D :: rest⟩ := by
  rw [List.map_cons, joined_comma _ _ (by simp)]
  -- What follows the comma matters by its first sign only, which is a quote.
  obtain ⟨onward, start⟩ := joined_member_head level w others
  generalize Text.joined [0x2C] ((w :: others).map (Style.member level)) = tail at start ⊢
  obtain ⟨q, name⟩ := key_write storable level m.1 p (0x2C :: (tail ++ 0x7D :: rest))
  obtain ⟨q', first⟩ := reads level fuel q (0x2C :: (tail ++ 0x7D :: rest)) enough
    (endsNumber_comma _)
  refine ⟨q' + 1, ?_⟩
  simp only [Style.member, List.append_assoc, List.cons_append]
  rw [Reader.members, name]
  simp only [bind, Except.bind]
  rw [first]
  simp only
  rw [skipSpace_cons (by decide), if_neg (here_of_ne (by decide)), if_pos (here_of_eq (by decide))]
  have skipped : skipSpace (Cursor.advance ⟨q', 0x2C :: (tail ++ 0x7D :: rest)⟩ 1) =
      ⟨q' + 1, tail ++ 0x7D :: rest⟩ := by
    simp only [Cursor.advance, List.drop_succ_cons, List.drop_zero]
    rw [start]
    exact skipSpace_cons (by decide) _ _
  rw [skipped]

/-- Behind the last member comes the brace. -/
theorem members_last {depth bound : Nat} {m : Text × Json} (storable : Storable bound m.2)
    (reads : Reads depth m.2) (level fuel p : Nat) (read : List (Text × Json)) (rest : Text)
    (enough : (Style.canonical.write level m.2).length < fuel) :
    ∃ q, Reader.members depth (fuel + 1) read ⟨p, Style.member level m ++ 0x7D :: rest⟩ =
      .ok (.obj (Members.ofPairs (read.reverse ++ [(m.1, m.2.inOrder)])), ⟨q, rest⟩) := by
  obtain ⟨q, name⟩ := key_write storable level m.1 p (0x7D :: rest)
  obtain ⟨q', first⟩ := reads level fuel q (0x7D :: rest) enough (endsNumber_brace rest)
  refine ⟨q' + 1, ?_⟩
  simp only [Style.member, List.append_assoc, List.cons_append]
  rw [Reader.members, name]
  simp only [bind, Except.bind]
  rw [first]
  simp only
  rw [skipSpace_cons (by decide), if_pos (here_of_eq (by decide))]
  simp [Cursor.advance]

/-- The members of an object, one after the other. -/
theorem members_write {depth : Nat} : ∀ (ms : List (Text × Json)), ms ≠ [] →
    (∀ m ∈ ms, Storable depth m.2) → (∀ m ∈ ms, Reads depth m.2) →
    ∀ (level fuel p : Nat) (read : List (Text × Json)) (rest : Text),
    (Text.joined [0x2C] (ms.map (Style.member level))).length < fuel →
    ∃ q, Reader.members depth fuel read
      ⟨p, Text.joined [0x2C] (ms.map (Style.member level)) ++ 0x7D :: rest⟩ =
        .ok (.obj (Members.ofPairs (read.reverse ++ ms.map fun m => (m.1, m.2.inOrder))),
          ⟨q, rest⟩) := by
  intro ms
  induction ms with
  | nil => exact fun none => absurd rfl none
  | cons m others ih =>
      intro _ storable reads level fuel p read rest enough
      obtain ⟨fuel, rfl⟩ := Nat.exists_eq_add_one_of_ne_zero (show fuel ≠ 0 by omega)
      have storableFirst := storable m List.mem_cons_self
      have readsFirst := reads m List.mem_cons_self
      have size : (Style.canonical.write level m.2).length < (Style.member level m).length := by
        simp only [Style.member, List.length_append, List.length_cons]
        omega
      cases others with
      | nil =>
          simp only [List.map_cons, List.map_nil, Text.joined] at enough ⊢
          exact members_last storableFirst readsFirst level fuel p read rest (by omega)
      | cons w others =>
          rw [List.map_cons, joined_comma _ _ (by simp)] at enough
          simp only [List.length_append, List.length_cons] at enough
          obtain ⟨q, step⟩ := members_step w others storableFirst readsFirst level fuel p read rest
            (by omega)
          obtain ⟨q', run⟩ := ih (List.cons_ne_nil _ _)
            (fun u member => storable u (List.mem_cons_of_mem _ member))
            (fun u member => reads u (List.mem_cons_of_mem _ member))
            level fuel q ((m.1, m.2.inOrder) :: read) rest (by omega)
          refine ⟨q', ?_⟩
          rw [step, run]
          simp

end Reader

namespace Reader

/-! ## Values -/

variable {depth fuel p : Nat} {rest : Text}

theorem value_string :
    value depth (fuel + 1) ⟨p, 0x22 :: rest⟩ =
      (string ⟨p, 0x22 :: rest⟩ >>= fun found => .ok (.str found.1, found.2)) := rfl

theorem value_array :
    value (depth + 1) (fuel + 1) ⟨p, 0x5B :: rest⟩ =
      if (skipSpace ⟨p + 1, rest⟩).here? == some (CodePoint.ofChar ']') then
        .ok (.arr [], (skipSpace ⟨p + 1, rest⟩).advance 1)
      else items depth fuel [] (skipSpace ⟨p + 1, rest⟩) := rfl

theorem value_object :
    value (depth + 1) (fuel + 1) ⟨p, 0x7B :: rest⟩ =
      if (skipSpace ⟨p + 1, rest⟩).here? == some (CodePoint.ofChar '\x7d') then
        .ok (.obj [], (skipSpace ⟨p + 1, rest⟩).advance 1)
      else members depth fuel [] (skipSpace ⟨p + 1, rest⟩) := rfl

theorem value_plain {c : CodePoint} (quote : c ≠ 0x22) (brace : c ≠ 0x7B) (bracket : c ≠ 0x5B) :
    value depth (fuel + 1) ⟨p, c :: rest⟩ = plain ⟨p, c :: rest⟩ := by
  rw [value.eq_def]
  simp only [Cursor.here?, List.head?_cons]
  rw [if_neg (show ¬ c = CodePoint.ofChar '"' from quote),
    if_neg (show ¬ c = CodePoint.ofChar '\x7b' from brace),
    if_neg (show ¬ c = CodePoint.ofChar '[' from bracket)]

/-- A number is read by its signs, as its first one opens nothing else. -/
theorem reads_int {n : Int} (short : Decimal.isLong n = false) : Reads depth (.int n) := by
  intro level fuel p rest enough ends
  obtain ⟨fuel, rfl⟩ := Nat.exists_eq_add_one_of_ne_zero (show fuel ≠ 0 by omega)
  obtain ⟨c, others, form, _, first⟩ := ofInt_head n
  obtain ⟨q, run⟩ := plain_ofInt short p ends
  refine ⟨q, ?_⟩
  rw [Style.write, form, List.cons_append,
    value_plain (first _ (by decide) (by decide)) (first _ (by decide) (by decide))
      (first _ (by decide) (by decide)), ← List.cons_append, ← form]
  exact run

theorem reads_str (t : Text) : Reads depth (.str t) := by
  intro level fuel p rest enough _
  obtain ⟨fuel, rfl⟩ := Nat.exists_eq_add_one_of_ne_zero (show fuel ≠ 0 by omega)
  obtain ⟨q, run⟩ := string_write t p rest
  refine ⟨q, ?_⟩
  show value _ _ ⟨p, 0x22 :: (t.flatMap escapeControls ++ [0x22] ++ rest)⟩ = _
  rw [value_string]
  show (string ⟨p, Style.canonical.string t ++ rest⟩ >>= _) = _
  rw [run]
  rfl

/-- Behind the bracket of an array with items comes the first of them: it does not start with the
bracket that would end the array. -/
theorem value_write_arr {bound : Nat} {v : Json} {others : List Json} (first : Storable bound v)
    (level : Nat) :
    value (depth + 1) (fuel + 1) ⟨p, Style.canonical.write level (.arr (v :: others)) ++ rest⟩ =
      items depth fuel [] ⟨p + 1, Text.joined [0x2C]
        ((v :: others).map (Style.canonical.write (level + 1))) ++ 0x5D :: rest⟩ := by
  obtain ⟨onward, start⟩ := joined_head (Style.canonical.write (level + 1)) v others
  obtain ⟨c, signs, form, sign, close, _⟩ := write_head first (level + 1)
  rw [Style.write_arr, List.cons_append, List.append_assoc, value_array]
  have here : skipSpace ⟨p + 1, Text.joined [0x2C]
      ((v :: others).map (Style.canonical.write (level + 1))) ++ ([0x5D] ++ rest)⟩ =
      ⟨p + 1, Text.joined [0x2C]
        ((v :: others).map (Style.canonical.write (level + 1))) ++ 0x5D :: rest⟩ := by
    rw [start, form]
    exact skipSpace_cons sign _ _
  rw [here, if_neg]
  rw [start, form]
  exact here_of_ne close

/-- Behind the brace of an object with members comes the first of them in key order. -/
theorem value_write_obj {ms : Members} (some : ms ≠ []) (level : Nat) :
    value (depth + 1) (fuel + 1) ⟨p, Style.canonical.write level (.obj ms) ++ rest⟩ =
      members depth fuel [] ⟨p + 1, Text.joined [0x2C]
        ((Style.inKeyOrder ms).map (Style.member (level + 1))) ++ 0x7D :: rest⟩ := by
  obtain ⟨m, others, ordered⟩ := List.exists_cons_of_ne_nil (Style.inKeyOrder_ne_nil some)
  obtain ⟨onward, start⟩ := joined_member_head (level + 1) m others
  rw [Style.write_obj, List.cons_append, List.append_assoc, value_object, ordered]
  have here : skipSpace ⟨p + 1, Text.joined [0x2C]
      ((m :: others).map (Style.member (level + 1))) ++ ([0x7D] ++ rest)⟩ =
      ⟨p + 1, Text.joined [0x2C]
        ((m :: others).map (Style.member (level + 1))) ++ 0x7D :: rest⟩ := by
    rw [start]
    exact skipSpace_cons (by decide) _ _
  rw [here, if_neg]
  rw [start]
  exact here_of_ne (by decide)

/-- An array is read if its items are. -/
theorem reads_arr {items : List Json} (storable : ∀ v ∈ items, Storable depth v)
    (reads : ∀ v ∈ items, Reads depth v) : Reads (depth + 1) (.arr items) := by
  intro level fuel p rest enough _
  obtain ⟨fuel, rfl⟩ := Nat.exists_eq_add_one_of_ne_zero (show fuel ≠ 0 by omega)
  rw [inOrder, itemsInOrder_eq]
  cases items with
  | nil =>
      refine ⟨p + 2, ?_⟩
      rw [Style.write_arr, List.cons_append, value_array]
      simp only [List.map_nil, Text.joined, List.nil_append, List.cons_append]
      rw [skipSpace_cons (by decide), if_pos (here_of_eq (by decide))]
      rfl
  | cons v others =>
      rw [Style.write_arr] at enough
      simp only [List.length_cons, List.length_append] at enough
      obtain ⟨q, run⟩ := items_write (v :: others) (List.cons_ne_nil _ _) storable reads
        (level + 1) fuel (p + 1) [] rest (by omega)
      exact ⟨q, (value_write_arr (storable v List.mem_cons_self) level).trans run⟩

/-- An object with different keys is read if its members are; they come in the order of the keys. -/
theorem reads_obj {members : Members} (distinct : (members.map Prod.fst).Nodup)
    (storable : ∀ m ∈ members, Storable depth m.2) (reads : ∀ m ∈ members, Reads depth m.2) :
    Reads (depth + 1) (.obj members) := by
  intro level fuel p rest enough _
  obtain ⟨fuel, rfl⟩ := Nat.exists_eq_add_one_of_ne_zero (show fuel ≠ 0 by omega)
  rw [inOrder, membersInOrder_eq, Style.inKeyOrder_map]
  by_cases none : members = []
  · subst none
    refine ⟨p + 2, ?_⟩
    rw [Style.write_obj, List.cons_append, value_object]
    simp only [Style.inKeyOrder, sortedBy, List.foldr_nil, List.map_nil, Text.joined,
      List.nil_append, List.cons_append]
    rw [skipSpace_cons (by decide), if_pos (here_of_eq (by decide))]
    rfl
  · rw [Style.write_obj] at enough
    simp only [List.length_cons, List.length_append] at enough
    obtain ⟨q, run⟩ := members_write (Style.inKeyOrder members) (Style.inKeyOrder_ne_nil none)
      (fun m member => storable m (Style.mem_inKeyOrder.mp member))
      (fun m member => reads m (Style.mem_inKeyOrder.mp member))
      (level + 1) fuel (p + 1) [] rest (by omega)
    refine ⟨q, (value_write_obj none level).trans (run.trans ?_)⟩
    rw [List.reverse_nil, List.nil_append, Members.ofPairs_of_nodup]
    rw [List.map_map]
    exact Style.nodup_keys_inKeyOrder distinct

/-- The reader takes the written form of a value for the value in order. -/
theorem value_write {depth : Nat} {v : Json} (h : Storable depth v) : Reads depth v := by
  induction h with
  | null =>
      intro level fuel p rest enough _
      obtain ⟨fuel, rfl⟩ := Nat.exists_eq_add_one_of_ne_zero (show fuel ≠ 0 by omega)
      exact ⟨_, rfl⟩
  | bool b =>
      intro level fuel p rest enough _
      obtain ⟨fuel, rfl⟩ := Nat.exists_eq_add_one_of_ne_zero (show fuel ≠ 0 by omega)
      cases b with
      | false => exact ⟨_, rfl⟩
      | true => exact ⟨_, rfl⟩
  | int short => exact reads_int short
  | str t => exact reads_str t
  | arr storable reads => exact reads_arr storable reads
  | obj distinct storable reads => exact reads_obj distinct storable reads

/-- Nothing but blanks is skipped to the end. -/
theorem skipSpace_blanks {blanks : Text} (all : ∀ c ∈ blanks, isSpace c = true) (p : Nat) :
    (skipSpace ⟨p, blanks⟩).rest = [] := by
  simp [skipSpace, Cursor.advance, List.takeWhile_eq_self_iff.mpr all]

end Reader

/-- A document that starts with a canonical text is read from there on: no mark and no blank stands
in front of it. -/
theorem document_write {bound : Nat} {v : Json} (h : Storable bound v) (behind : Text) :
    Reader.document (v.canonicalText ++ behind) =
      (Reader.value nestingLimit (2 * (v.canonicalText ++ behind).length + 2)
        ⟨0, Style.canonical.write 0 v ++ behind⟩ >>= fun found =>
          if (Reader.skipSpace found.2).rest.isEmpty then .ok found.1
          else (Reader.skipSpace found.2).refuse .extraData) := by
  obtain ⟨c, others, form, _, _, low⟩ := write_head h 0
  have mark : ((v.canonicalText ++ behind).head? == some 0xFEFF) = false := by
    simp only [canonicalText, form, List.cons_append, List.head?_cons, Option.some_beq_some,
      beq_eq_false_iff_ne]
    rintro rfl
    exact absurd low (by decide)
  unfold Reader.document
  rw [mark, if_neg Bool.false_ne_true]
  show (Reader.value _ _ (Reader.skipSpace ⟨0, Style.canonical.write 0 v ++ behind⟩) >>= _) = _
  rw [Reader.skipSpace_write h]

/-- Reading the canonical text of a value, with blanks behind it, gives the value in order. -/
theorem read_canonicalText {v : Json} (h : Storable nestingLimit v) {blanks : Text}
    (all : ∀ c ∈ blanks, Reader.isSpace c = true) :
    read (v.canonicalText ++ blanks) = .ok v.inOrder := by
  have ends : Reader.EndsNumber blanks := by
    intro d member
    have blank := all d (List.mem_of_mem_head? member)
    simp only [Reader.isSpace, Bool.or_eq_true, beq_iff_eq] at blank
    rcases blank with ((rfl | rfl) | rfl) | rfl <;> decide
  obtain ⟨q, run⟩ := Reader.value_write h 0
    (2 * (v.canonicalText ++ blanks).length + 2) 0 blanks
    (by simp only [canonicalText, List.length_append]; omega) ends
  rw [read, document_write h, run]
  simp only [bind, Except.bind, Reader.skipSpace_blanks all]
  rfl

theorem read_canonicalText_alone {v : Json} (h : Storable nestingLimit v) :
    read v.canonicalText = .ok v.inOrder := by
  have run := read_canonicalText h (List.forall_mem_nil _)
  rwa [List.append_nil] at run

/-! ## Looking members up -/

/-- Where the keys differ, the order of the members does not matter to a look-up. -/
theorem get?_eq_some_iff {members : Members} (distinct : (members.map Prod.fst).Nodup)
    {key : Text} {v : Json} : members.get? key = some v ↔ (key, v) ∈ members := by
  induction members with
  | nil => simp [Members.get?]
  | cons m rest ih =>
      obtain ⟨k, w⟩ := m
      simp only [List.map_cons, List.nodup_cons] at distinct
      rw [Members.get?]
      by_cases same : k = key
      · subst same
        rw [if_pos rfl, List.mem_cons]
        constructor
        · rintro h
          injection h with h
          exact Or.inl (by rw [h])
        · rintro (h | h)
          · injection h with _ h
            rw [h]
          · exact absurd (List.mem_map_of_mem (f := Prod.fst) h) distinct.1
      · rw [if_neg same, ih distinct.2, List.mem_cons]
        constructor
        · exact Or.inr
        · rintro (h | h)
          · injection h with h _
            exact absurd h.symm same
          · exact h

theorem get?_eq_of_perm {l m : Members} (same : l.Perm m) (distinct : (l.map Prod.fst).Nodup)
    (key : Text) : l.get? key = m.get? key := by
  apply Option.ext
  intro v
  rw [get?_eq_some_iff distinct, same.mem_iff,
    get?_eq_some_iff ((same.map Prod.fst).nodup_iff.mp distinct)]

theorem get?_map (f : Json → Json) (members : Members) (key : Text) :
    Members.get? key (members.map fun m => (m.1, f m.2)) = (members.get? key).map f := by
  induction members with
  | nil => rfl
  | cons m rest ih =>
      obtain ⟨k, v⟩ := m
      simp only [List.map_cons, Members.get?]
      split
      · rfl
      · exact ih

/-- A member of an object in order is that member in order. -/
theorem get?_inOrder {members : Members} (distinct : (members.map Prod.fst).Nodup) (key : Text) :
    Members.get? key (Style.inKeyOrder (membersInOrder members)) =
      (members.get? key).map inOrder := by
  rw [membersInOrder_eq, ← get?_map]
  refine (get?_eq_of_perm (sortedBy_perm _ _).symm ?_ key).symm
  rw [List.map_map]
  exact distinct

/-- A member of an object is found under its key in the object in order. -/
theorem get?_of_mem {members : Members} (distinct : (members.map Prod.fst).Nodup) {key : Text}
    {v : Json} (h : (key, v) ∈ members) :
    Members.get? key (Style.inKeyOrder (membersInOrder members)) = some v.inOrder := by
  rw [get?_inOrder distinct, (get?_eq_some_iff distinct).mpr h, Option.map_some]

/-! ## Arrays of texts -/

theorem inOrder_texts (ts : List Text) : (texts ts).inOrder = texts ts := by
  rw [texts, inOrder, itemsInOrder_eq, List.map_map]
  rfl

theorem storable_texts (depth : Nat) (ts : List Text) : Storable (depth + 1) (texts ts) := by
  apply Storable.arr
  intro v member
  obtain ⟨t, _, rfl⟩ := List.mem_map.mp member
  exact .str t

/-- The texts of an array of texts are read back. -/
theorem mapM_text? (ts : List Text) : (ts.map str).mapM text? = some ts := by
  have each : ∀ v ∈ ts.map str, text? v = pure ((text? v).getD []) := by
    intro v member
    obtain ⟨t, _, rfl⟩ := List.mem_map.mp member
    rfl
  rw [mapM_eq_pure each, List.map_map]
  show some (ts.map id) = _
  rw [List.map_id]

/-! ## Stored bytes -/

@[simp] theorem holdsLong_str (t : Text) : holdsLong (.str t) = false := by
  rw [holdsLong]
  all_goals simp

@[simp] theorem holdsLong_int (n : Int) : holdsLong (.int n) = Decimal.isLong n := by
  rw [holdsLong]

@[simp] theorem holdsLong_arr (items : List Json) :
    holdsLong (.arr items) = items.any holdsLong := by
  rw [holdsLong]
  induction items with
  | nil => rfl
  | cons v rest ih => rw [itemsHoldLong, List.any_cons, ih]

@[simp] theorem holdsLong_obj (members : List (Text × Json)) :
    holdsLong (.obj members) = members.any fun m => m.2.holdsLong := by
  rw [holdsLong]
  induction members with
  | nil => rfl
  | cons m rest ih => rw [membersHoldLong, List.any_cons, ih]

/-- A value has stored bytes exactly when it has no long number and its text no surrogate. -/
theorem storedBytes_eq_ok {v : Json} {bytes : Bytes} :
    v.storedBytes = .ok bytes ↔ v.holdsLong = false ∧ Utf8.encode v.canonicalText = .ok bytes := by
  unfold storedBytes
  split
  · rename_i long
    simp [long]
  · rename_i short
    rw [mapError_eq_ok, canonicalBytes]
    simp [Bool.eq_false_iff.mpr short]

/-- Where a text is wanted, a text stands for itself. -/
theorem textOrEmpty_str (t : Text) : (Json.str t).textOrEmpty = t := by
  unfold textOrEmpty isTruthy
  cases t with
  | nil => rfl
  | cons c rest => rfl

end Json

end ModulePackaging
