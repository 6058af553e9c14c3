import ModulePackaging.Proofs.Json.Nesting

/-!
# The canonical form

The canonical bytes of a value stand for the value and nothing else: they are read back as it, two
values share them exactly if they are the same but for the order of their members, and their layout
leaves no choice, with no blank outside of strings and the keys of every object in order.

Main statement (`canonicalText_faithful`): all this for values without fractions, surrogates and numbers of
too many digits, however deeply they are nested; only the reader stops at its limit.
-/

namespace ModulePackaging

namespace Json

/-! ## Equal values -/

/-- Values that are equal, objects without regard to the order of their members: they have the same
keys, and the same value under each. -/
inductive Same : Json → Json → Prop
  | null : Same .null .null
  | bool (b : Bool) : Same (.bool b) (.bool b)
  | int (n : Int) : Same (.int n) (.int n)
  | str (t : Text) : Same (.str t) (.str t)
  | arr {items others : List Json} (length : items.length = others.length)
      (each : ∀ (i : Nat) (v w : Json), items[i]? = some v → others[i]? = some w → Same v w) :
      Same (.arr items) (.arr others)
  | obj {members others : Members}
      (keys : ∀ key, (members.get? key).isSome = (others.get? key).isSome)
      (each : ∀ (key : Text) (v w : Json), members.get? key = some v → others.get? key = some w →
        Same v w) :
      Same (.obj members) (.obj others)

/-- Members with the same value under each key are the same members. -/
theorem perm_of_get?_eq {l m : Members} (distinct : (l.map Prod.fst).Nodup)
    (distinct' : (m.map Prod.fst).Nodup) (same : ∀ key, l.get? key = m.get? key) : l.Perm m := by
  refine (List.perm_ext_iff_of_nodup (distinct.of_map _) (distinct'.of_map _)).mpr ?_
  rintro ⟨key, v⟩
  rw [← get?_eq_some_iff distinct, ← get?_eq_some_iff distinct', same key]

theorem nodup_keys_membersInOrder {members : Members} (distinct : (members.map Prod.fst).Nodup) :
    ((membersInOrder members).map Prod.fst).Nodup := by
  rw [membersInOrder_eq, List.map_map]
  exact distinct

theorem get?_membersInOrder (members : Members) (key : Text) :
    Members.get? key (membersInOrder members) = (members.get? key).map inOrder := by
  rw [membersInOrder_eq, get?_map]

/-- Equal values are alike in order. -/
theorem Same.inOrder_eq {v w : Json} (h : v.Same w) (plain : v.IsPlain) (other : w.IsPlain) :
    v.inOrder = w.inOrder := by
  induction h with
  | null => rfl
  | bool b => rfl
  | int n => rfl
  | str t => rfl
  | @arr items others length _ ih =>
      obtain _ | _ | _ | _ | ⟨plain⟩ := plain
      obtain _ | _ | _ | _ | ⟨other⟩ := other
      rw [inOrder, inOrder, itemsInOrder_eq, itemsInOrder_eq]
      congr 1
      refine List.ext_getElem (by simpa using length) fun i inside also => ?_
      rw [List.length_map] at inside also
      rw [List.getElem_map, List.getElem_map]
      exact ih i _ _ (List.getElem?_eq_getElem inside) (List.getElem?_eq_getElem also)
        (plain _ (List.getElem_mem inside)) (other _ (List.getElem_mem also))
  | @obj members others keys _ ih =>
      cases plain with
      | obj distinct _ plain =>
      cases other with
      | obj distinct' _ other =>
      rw [inOrder, inOrder, Style.inKeyOrder, Style.inKeyOrder]
      congr 1
      refine sortedByKey_eq_of_perm Prod.fst (perm_of_get?_eq (nodup_keys_membersInOrder distinct)
        (nodup_keys_membersInOrder distinct') fun key => ?_) (nodup_keys_membersInOrder distinct)
      rw [get?_membersInOrder, get?_membersInOrder]
      have present := keys key
      cases here : members.get? key with
      | none =>
          rw [here, Option.isSome_none, eq_comm, Option.isSome_eq_false_iff,
            Option.isNone_iff_eq_none] at present
          rw [present]
      | some v =>
          rw [here, Option.isSome_some, eq_comm, Option.isSome_iff_exists] at present
          obtain ⟨w, there⟩ := present
          have inside := (get?_eq_some_iff distinct).mp here
          have also := (get?_eq_some_iff distinct').mp there
          rw [there, Option.map_some, Option.map_some,
            ih key v w here there (plain _ inside) (other _ also)]

/-- Values that are alike in order are equal. -/
theorem same_of_inOrder_eq {v w : Json} (plain : v.IsPlain) (other : w.IsPlain)
    (h : v.inOrder = w.inOrder) : v.Same w := by
  induction plain generalizing w with
  | null =>
      cases other with
      | null => exact .null
      | _ => simp [inOrder] at h
  | bool b =>
      cases other with
      | bool c =>
          simp only [inOrder, bool.injEq] at h
          exact h ▸ .bool b
      | _ => simp [inOrder] at h
  | @int n _ =>
      cases other with
      | int _ =>
          simp only [inOrder, int.injEq] at h
          exact h ▸ .int n
      | _ => simp [inOrder] at h
  | @str t _ =>
      cases other with
      | str _ =>
          simp only [inOrder, str.injEq] at h
          exact h ▸ .str t
      | _ => simp [inOrder] at h
  | @arr items _ ih =>
      cases other with
      | @arr others other =>
          simp only [inOrder, itemsInOrder_eq, arr.injEq] at h
          refine .arr (by simpa using congrArg List.length h) fun i v w here there => ?_
          have alike := congrArg (fun list : List Json => list[i]?) h
          simp only [List.getElem?_map, here, there, Option.map_some, Option.some.injEq] at alike
          exact ih v (List.mem_of_getElem? here) (other w (List.mem_of_getElem? there)) alike
      | _ => simp [inOrder] at h
  | @obj members distinct _ _ ih =>
      cases other with
      | @obj others distinct' _ other =>
          simp only [inOrder, obj.injEq] at h
          have alike (key : Text) : (Members.get? key members).map inOrder =
              (Members.get? key others).map inOrder := by
            rw [← get?_inOrder distinct, h, get?_inOrder distinct']
          refine .obj (fun key => by simpa using congrArg Option.isSome (alike key)) ?_
          intro key v w here there
          have values := alike key
          rw [here, there, Option.map_some, Option.map_some, Option.some.injEq] at values
          exact ih (key, v) ((get?_eq_some_iff distinct).mp here)
            (other (key, w) ((get?_eq_some_iff distinct').mp there)) values
      | _ => simp [inOrder] at h

theorem same_iff {v w : Json} (plain : v.IsPlain) (other : w.IsPlain) :
    v.Same w ↔ v.inOrder = w.inOrder :=
  ⟨fun same => same.inOrder_eq plain other, same_of_inOrder_eq plain other⟩

/-! ## Values in order -/

theorem Style.inKeyOrder_inKeyOrder {α : Type} (members : List (Text × α)) :
    inKeyOrder (inKeyOrder members) = inKeyOrder members :=
  sortedBy_of_pairwise
    (sortedBy_pairwise (keyOrder_total Prod.fst) (keyOrder_trans Prod.fst) members)

variable {v w : Json}

/-- Putting a value in order changes nothing about its being equal to others. -/
theorem IsPlain.same_inOrder (h : v.IsPlain) : v.Same v.inOrder := by
  induction h with
  | null => exact .null
  | bool b => exact .bool b
  | @int n _ => exact .int n
  | @str t _ => exact .str t
  | @arr items _ ih =>
      rw [inOrder, itemsInOrder_eq]
      refine .arr (by simp) fun i v w here there => ?_
      rw [List.getElem?_map, here] at there
      obtain rfl := Option.some.inj there
      exact ih v (List.mem_of_getElem? here)
  | @obj members distinct _ _ ih =>
      rw [inOrder]
      refine .obj (fun key => ?_) fun key v w here there => ?_
      · rw [get?_inOrder distinct, Option.isSome_map]
      · rw [get?_inOrder distinct, here] at there
        obtain rfl := Option.some.inj there
        exact ih (key, v) ((get?_eq_some_iff distinct).mp here)

/-- Values are written alike whatever order their members are in. -/
theorem IsPlain.write_inOrder (h : v.IsPlain) (level : Nat) :
    Style.canonical.write level v.inOrder = Style.canonical.write level v := by
  induction h generalizing level with
  | null => rfl
  | bool b => rfl
  | int _ => rfl
  | str _ => rfl
  | arr _ ih =>
      rw [inOrder, itemsInOrder_eq, Style.write_arr, Style.write_arr, List.map_map]
      congr 3
      exact List.map_congr_left fun v member => ih v member _
  | obj _ _ _ ih =>
      rw [inOrder, membersInOrder_eq, Style.write_obj, Style.write_obj,
        Style.inKeyOrder_inKeyOrder, Style.inKeyOrder_map, List.map_map]
      congr 3
      refine List.map_congr_left fun m member => ?_
      rw [Function.comp_apply, Style.member, ih m (Style.mem_inKeyOrder.mp member)]
      rfl

/-- What is written alike is read alike, whatever the limit, so it is equal. -/
theorem inOrder_eq_of_canonicalText (plain : v.IsPlain) (other : w.IsPlain)
    (h : v.canonicalText = w.canonicalText) : v.inOrder = w.inOrder := by
  have first := Reader.value_write (plain.storable (Nat.le_max_left v.nesting w.nesting))
  have second := Reader.value_write (other.storable (Nat.le_max_right v.nesting w.nesting))
  obtain ⟨p, run⟩ := first 0 (v.canonicalText.length + 1) 0 [] (Nat.lt_succ_self _)
    Reader.endsNumber_nil
  obtain ⟨q, also⟩ := second 0 (v.canonicalText.length + 1) 0 [] (h ▸ Nat.lt_succ_self _)
    Reader.endsNumber_nil
  change Style.canonical.write 0 v = Style.canonical.write 0 w at h
  rw [← h, run] at also
  exact congrArg Prod.fst (Except.ok.inj also)

/-- Plain values share their bytes exactly if they are equal. -/
theorem storedBytes_eq_iff (plain : v.IsPlain) (other : w.IsPlain) :
    v.storedBytes = w.storedBytes ↔ v.Same w := by
  rw [same_iff plain other]
  constructor
  · intro same
    have first := (storedBytes_eq_ok.mp plain.storedBytes_eq).2
    have second := (storedBytes_eq_ok.mp (same.symm.trans plain.storedBytes_eq)).2
    exact inOrder_eq_of_canonicalText plain other (Utf8.encode_inj first second)
  · intro same
    have text : v.canonicalText = w.canonicalText := by
      rw [canonicalText, ← plain.write_inOrder, same, other.write_inOrder, canonicalText]
    rw [plain.storedBytes_eq, other.storedBytes_eq, text]

/-! ## The layout -/

/-- Texts in which nothing is left to choice: no blanks between the tokens, and the keys of each
object in ascending order. -/
inductive Tidy : Text → Prop
  | word {t : Text} (known : t = "null" ∨ t = "true" ∨ t = "false") : Tidy t
  | number (n : Int) : Tidy (Text.ofInt n)
  | string (t : Text) : Tidy (Style.canonical.string t)
  | array {items : List Text} (tidy : ∀ t ∈ items, Tidy t) :
      Tidy (0x5B :: (Text.joined [0x2C] items ++ [0x5D]))
  | object {members : List (Text × Text)} (ascending : (members.map Prod.fst).Pairwise (· < ·))
      (tidy : ∀ m ∈ members, Tidy m.2) :
      Tidy (0x7B :: (Text.joined [0x2C]
        (members.map fun m => Style.canonical.string m.1 ++ 0x3A :: m.2) ++ [0x7D]))

/-- Different keys are in ascending order once they are sorted. -/
theorem Style.ascending_inKeyOrder {α : Type} {members : List (Text × α)}
    (distinct : (members.map Prod.fst).Nodup) :
    ((inKeyOrder members).map Prod.fst).Pairwise (· < ·) :=
  sortedByKey_ascending Prod.fst distinct

/-- A canonical text is tidy, in all of its parts. -/
theorem IsPlain.tidy (h : v.IsPlain) (level : Nat) : Tidy (Style.canonical.write level v) := by
  induction h generalizing level with
  | null => exact .word (.inl rfl)
  | bool b =>
      cases b with
      | true => exact .word (.inr (.inl rfl))
      | false => exact .word (.inr (.inr rfl))
  | @int n _ => exact .number n
  | @str t _ => exact .string t
  | @arr items _ ih =>
      rw [Style.write_arr]
      refine .array fun t member => ?_
      obtain ⟨v, inside, rfl⟩ := List.mem_map.mp member
      exact ih v inside _
  | @obj members distinct _ _ ih =>
      rw [Style.write_obj]
      have written : (Style.inKeyOrder members).map (Style.member (level + 1)) =
          ((Style.inKeyOrder members).map fun m => (m.1, Style.canonical.write (level + 1) m.2)).map
            fun m => Style.canonical.string m.1 ++ 0x3A :: m.2 := by
        rw [List.map_map]
        rfl
      rw [written]
      refine .object ?_ fun m member => ?_
      · rw [List.map_map]
        exact Style.ascending_inKeyOrder distinct
      · obtain ⟨source, inside, rfl⟩ := List.mem_map.mp member
        exact ih source (Style.mem_inKeyOrder.mp inside) _

/-- Where a code point stands: outside of all strings, in one, or behind a backslash in one. -/
inductive Spot
  | outside
  | inside
  | escaped

/-- What is left of a text when its strings are taken out, from a spot on. -/
def unquoted : Spot → Text → Text
  | _, [] => []
  | .outside, c :: rest => if c = 0x22 then unquoted .inside rest else c :: unquoted .outside rest
  | .inside, c :: rest =>
    if c = 0x22 then unquoted .outside rest
    else if c = 0x5C then unquoted .escaped rest
    else unquoted .inside rest
  | .escaped, _ :: rest => unquoted .inside rest

theorem unquoted_inside_of_none {t : Text} (none : ∀ c ∈ t, c ≠ 0x22 ∧ c ≠ 0x5C) (rest : Text) :
    unquoted .inside (t ++ rest) = unquoted .inside rest := by
  induction t with
  | nil => rfl
  | cons c t ih =>
      obtain ⟨⟨quote, backslash⟩, others⟩ := List.forall_mem_cons.mp none
      rw [List.cons_append, unquoted, if_neg quote, if_neg backslash, ih others]

/-- A written code point does not end the string it is in. -/
theorem unquoted_escapeControls (c : CodePoint) (rest : Text) :
    unquoted .inside (escapeControls c ++ rest) = unquoted .inside rest := by
  rcases escapeControls_cases c with ⟨letter, _, _, _, _, form⟩ | ⟨_, form⟩ |
    ⟨quote, backslash, _, form⟩
  · rw [form]
    rfl
  · have digits : ∀ d ∈ Text.hexDigits 4 c.val, d ≠ 0x22 ∧ d ≠ 0x5C := by
      have all : ∀ d : Fin 16, Text.hexDigit d ≠ 0x22 ∧ Text.hexDigit d ≠ 0x5C := by decide
      have digit (n : Nat) := all ⟨n % 16, Nat.mod_lt n (by decide)⟩
      rw [hexDigits_four]
      simp only [List.forall_mem_cons]
      exact ⟨digit _, digit _, digit _, digit _, List.forall_mem_nil _⟩
    rw [form]
    exact unquoted_inside_of_none digits rest
  · rw [form]
    exact unquoted_inside_of_none (List.forall_mem_singleton.mpr ⟨quote, backslash⟩) rest

/-- A written string is taken out as a whole. -/
theorem unquoted_string (t rest : Text) :
    unquoted .outside (Style.canonical.string t ++ rest) = unquoted .outside rest := by
  rw [Style.string_eq, List.cons_append, unquoted, if_pos rfl, List.append_assoc]
  induction t with
  | nil => rfl
  | cons c t ih => rw [List.flatMap_cons, List.append_assoc, unquoted_escapeControls, ih]

/-- Outside of its strings a text has no blank, and it leaves no string open. -/
def IsTight (t : Text) : Prop :=
  ∃ signs : Text, (∀ rest, unquoted .outside (t ++ rest) = signs ++ unquoted .outside rest) ∧
    ∀ c ∈ signs, c.isBlank = false

namespace IsTight

variable {t u : Text}

theorem append (first : IsTight t) (second : IsTight u) : IsTight (t ++ u) := by
  obtain ⟨signs, taken, solid⟩ := first
  obtain ⟨others, also, solid'⟩ := second
  refine ⟨signs ++ others, fun rest => ?_, List.forall_mem_append.mpr ⟨solid, solid'⟩⟩
  rw [List.append_assoc, taken, also, List.append_assoc]

theorem joined {sep : Text} (between : IsTight sep) {pieces : List Text}
    (all : ∀ piece ∈ pieces, IsTight piece) : IsTight (Text.joined sep pieces) := by
  induction pieces with
  | nil => exact ⟨[], fun _ => rfl, List.forall_mem_nil _⟩
  | cons piece rest ih =>
      obtain ⟨first, others⟩ := List.forall_mem_cons.mp all
      cases rest with
      | nil => exact first
      | cons next more => exact (first.append between).append (ih others)

/-- Signs that are neither quotes nor blanks. -/
theorem of_signs (signs : ∀ c ∈ t, c ≠ 0x22 ∧ c.isBlank = false) : IsTight t := by
  refine ⟨t, fun rest => ?_, fun c member => (signs c member).2⟩
  induction t with
  | nil => rfl
  | cons c t ih =>
      obtain ⟨⟨quote, _⟩, others⟩ := List.forall_mem_cons.mp signs
      rw [List.cons_append, unquoted, if_neg quote, ih others]
      rfl

theorem string (t : Text) : IsTight (Style.canonical.string t) :=
  ⟨[], unquoted_string t, List.forall_mem_nil _⟩

theorem number (n : Int) : IsTight (Text.ofInt n) := by
  have digits (k : Nat) : ∀ c ∈ Text.ofNat k, c ≠ 0x22 ∧ c.isBlank = false := by
    intro c member
    have digit := Text.isAsciiDigit_of_mem_ofNat k c member
    refine ⟨?_, ?_⟩
    · rintro rfl
      exact absurd digit (by decide)
    · simp only [CodePoint.isAsciiDigit, Bool.and_eq_true, decide_eq_true_eq] at digit
      exact CodePoint.isBlank_of_printing (by omega) (by omega)
  cases n with
  | ofNat k => exact of_signs (digits k)
  | negSucc k => exact of_signs (List.forall_mem_cons.mpr ⟨by decide, digits (k + 1)⟩)

end IsTight

/-- In a tidy text blanks stand in strings only. -/
theorem Tidy.isTight {t : Text} (h : Tidy t) : IsTight t := by
  have sign {c : CodePoint} (quote : c ≠ 0x22) (solid : c.isBlank = false) : IsTight [c] :=
    IsTight.of_signs (List.forall_mem_singleton.mpr ⟨quote, solid⟩)
  have comma : IsTight [0x2C] := sign (by decide) (by decide)
  have word (t : Text) (letters : (t.all fun c => c != 0x22 && !c.isBlank) = true) : IsTight t :=
    IsTight.of_signs fun c member => by simpa using List.all_eq_true.mp letters c member
  induction h with
  | word known =>
      rcases known with rfl | rfl | rfl
      · exact word "null" (by decide)
      · exact word "true" (by decide)
      · exact word "false" (by decide)
  | number n => exact .number n
  | string t => exact .string t
  | array _ ih =>
      exact (sign (c := 0x5B) (by decide) (by decide)).append
        ((comma.joined ih).append (sign (c := 0x5D) (by decide) (by decide)))
  | @object members _ _ ih =>
      refine (sign (c := 0x7B) (by decide) (by decide)).append
        ((comma.joined fun piece member => ?_).append (sign (c := 0x7D) (by decide) (by decide)))
      obtain ⟨m, inside, rfl⟩ := List.mem_map.mp member
      exact (IsTight.string m.1).append
        ((sign (c := 0x3A) (by decide) (by decide)).append (ih m inside))

end Json

namespace Sample

open Json

/-- An object whose keys are not in order, with a string of signs that are escaped. -/
def unsorted : Json :=
  .obj [("b", .arr [.int (-1), .bool true, .null]), ("\u00E9", .str "\"\\\n\x00"), ("a", .obj [])]

/-- The same object with its keys in another order. -/
def resorted : Json :=
  .obj [("a", .obj []), ("\u00E9", .str "\"\\\n\x00"), ("b", .arr [.int (-1), .bool true, .null])]

theorem isPlain_unsorted : unsorted.IsPlain ∧ resorted.IsPlain := by
  have items : IsPlain (.arr [.int (-1), .bool true, .null]) := by
    refine .arr ?_
    simp only [List.forall_mem_cons]
    exact ⟨.int (by decide), .bool true, .null, List.forall_mem_nil _⟩
  have text : IsPlain (.str "\"\\\n\x00") := .str (Text.isEncodable_ofString _)
  have empty : IsPlain (.obj []) := .obj List.nodup_nil (List.forall_mem_nil _) (List.forall_mem_nil _)
  have key (s : String) : (s : Text).IsEncodable := Text.isEncodable_ofString s
  constructor
  · refine .obj (by decide) ?_ ?_ <;> simp only [List.forall_mem_cons]
    · exact ⟨key "b", key "\u00E9", key "a", List.forall_mem_nil _⟩
    · exact ⟨items, text, empty, List.forall_mem_nil _⟩
  · refine .obj (by decide) ?_ ?_ <;> simp only [List.forall_mem_cons]
    · exact ⟨key "a", key "\u00E9", key "b", List.forall_mem_nil _⟩
    · exact ⟨empty, text, items, List.forall_mem_nil _⟩

/-- An array in an array, and so on: `n` times around an empty one. -/
def arrays : Nat → Json
  | 0 => .arr []
  | n + 1 => .arr [arrays n]

theorem isPlain_arrays (n : Nat) : (arrays n).IsPlain := by
  induction n with
  | zero => exact .arr (List.forall_mem_nil _)
  | succ n ih => exact .arr (List.forall_mem_singleton.mpr ih)

theorem nesting_arrays (n : Nat) : (arrays n).nesting = n + 1 := by
  induction n with
  | zero => rfl
  | succ n ih => simp [arrays, nesting, itemsNesting, ih]

end Sample

end ModulePackaging
