import ModulePackaging.Proofs.Json.Encodable

/-!
# How deeply values are nested

The reader follows arrays and objects down to a limit. A canonical text whose value is nested no
deeper is read, and one whose value is nested more deeply is refused at the bracket that goes too
far (`read_of_deep`), whatever stands in front of it.
-/

namespace ModulePackaging.Json

mutual

/-- How many arrays and objects enclose the innermost one of a value, itself included. -/
def nesting : Json → Nat
  | .arr items => itemsNesting items + 1
  | .obj members => membersNesting members + 1
  | _ => 0

/-- The deepest nesting of some items. -/
def itemsNesting : List Json → Nat
  | [] => 0
  | item :: rest => max item.nesting (itemsNesting rest)

/-- The deepest nesting of the values of some members. -/
def membersNesting : List (Text × Json) → Nat
  | [] => 0
  | (_, item) :: rest => max item.nesting (membersNesting rest)

end

theorem itemsNesting_le {items : List Json} {depth : Nat} :
    itemsNesting items ≤ depth ↔ ∀ v ∈ items, v.nesting ≤ depth := by
  induction items with
  | nil => simp [itemsNesting]
  | cons v rest ih => rw [itemsNesting, Nat.max_le, ih, List.forall_mem_cons]

theorem membersNesting_le {members : List (Text × Json)} {depth : Nat} :
    membersNesting members ≤ depth ↔ ∀ m ∈ members, m.2.nesting ≤ depth := by
  induction members with
  | nil => simp [membersNesting]
  | cons m rest ih => rw [membersNesting, Nat.max_le, ih, List.forall_mem_cons]

/-- Values of the kinds that canonical texts hold faithfully, however deeply they are nested: no
fractions, no numbers of too many digits, no surrogates in texts, each key of an object once. -/
inductive IsPlain : Json → Prop
  | null : IsPlain .null
  | bool (b : Bool) : IsPlain (.bool b)
  | int {n : Int} (short : Decimal.isLong n = false) : IsPlain (.int n)
  | str {t : Text} (encodable : t.IsEncodable) : IsPlain (.str t)
  | arr {items : List Json} (plain : ∀ v ∈ items, IsPlain v) : IsPlain (.arr items)
  | obj {members : List (Text × Json)} (distinct : (members.map Prod.fst).Nodup)
      (encodable : ∀ m ∈ members, m.1.IsEncodable) (plain : ∀ m ∈ members, IsPlain m.2) :
      IsPlain (.obj members)

namespace IsPlain

variable {v : Json}

/-- A plain value can be stored wherever its nesting is followed. -/
theorem storable (h : v.IsPlain) {depth : Nat} (shallow : v.nesting ≤ depth) :
    Storable depth v := by
  induction h generalizing depth with
  | null => exact .null
  | bool b => exact .bool b
  | int short => exact .int short
  | str _ => exact .str _
  | arr _ ih =>
      rw [nesting] at shallow
      obtain ⟨depth, rfl⟩ := Nat.exists_eq_add_one_of_ne_zero (show depth ≠ 0 by omega)
      have inner := itemsNesting_le.mp (Nat.le_of_succ_le_succ shallow)
      exact .arr fun v member => ih v member (inner v member)
  | obj distinct _ _ ih =>
      rw [nesting] at shallow
      obtain ⟨depth, rfl⟩ := Nat.exists_eq_add_one_of_ne_zero (show depth ≠ 0 by omega)
      have inner := membersNesting_le.mp (Nat.le_of_succ_le_succ shallow)
      exact .obj distinct fun m member => ih m member (inner m member)

/-- A plain value has bytes: those of its canonical text. -/
theorem isEncodable_write (h : v.IsPlain) (level : Nat) :
    (Style.canonical.write level v).IsEncodable := by
  induction h generalizing level with
  | null => exact Text.isEncodable_ofString "null"
  | bool b => cases b <;> exact Text.isEncodable_ofString _
  | int _ => exact Style.isEncodable_write_int
  | str encodable => exact Style.isEncodable_write_str.mpr encodable
  | arr _ ih => exact Style.isEncodable_write_arr.mpr fun v member => ih v member _
  | obj _ encodable _ ih =>
      exact Style.isEncodable_write_obj.mpr fun m member => ⟨encodable m member, ih m member _⟩

theorem holdsLong_eq_false (h : v.IsPlain) : v.holdsLong = false := by
  induction h with
  | null => rfl
  | bool b => rfl
  | int short => rw [holdsLong_int, short]
  | str _ => exact holdsLong_str _
  | arr _ ih => simpa using ih
  | obj _ _ _ ih =>
      rw [holdsLong_obj, List.any_eq_false]
      exact fun m member => by simp [ih m member]

/-- A plain value is stored as the bytes of its canonical text. -/
theorem storedBytes_eq (h : v.IsPlain) :
    v.storedBytes = .ok (v.canonicalText.flatMap Utf8.encodePoint) :=
  storedBytes_eq_ok.mpr
    ⟨h.holdsLong_eq_false, Utf8.encode_of_isEncodable (h.isEncodable_write 0)⟩

end IsPlain

/-! ## Where the reader gives up -/

namespace Reader

/-- What is to be shown of a value that is nested too deeply: the reader refuses its written form as
such, if there is fuel for each sign. -/
def Refuses (depth : Nat) (v : Json) : Prop :=
  ∀ (level fuel p : Nat) (rest : Text), (Style.canonical.write level v).length < fuel →
    ∃ container, value depth fuel ⟨p, Style.canonical.write level v ++ rest⟩ =
      .error (.tooDeep container)

variable {depth : Nat}

/-- Items are refused at the first one that is nested too deeply. -/
theorem items_refuse : ∀ (items : List Json), (∀ v ∈ items, v.IsPlain) →
    (∀ v ∈ items, depth < v.nesting → Refuses depth v) → (∃ v ∈ items, depth < v.nesting) →
    ∀ (level fuel p : Nat) (read : List Json) (rest : Text),
    (Text.joined [0x2C] (items.map (Style.canonical.write level))).length + 1 < fuel →
    ∃ container, Reader.items depth fuel read
      ⟨p, Text.joined [0x2C] (items.map (Style.canonical.write level)) ++ 0x5D :: rest⟩ =
        .error (.tooDeep container) := by
  intro items
  induction items with
  | nil => exact fun _ _ none => absurd none (by simp)
  | cons v others ih =>
      intro plain refuses deep level fuel p read rest enough
      obtain ⟨fuel, rfl⟩ := Nat.exists_eq_add_one_of_ne_zero (show fuel ≠ 0 by omega)
      obtain ⟨onward, start⟩ := joined_head (Style.canonical.write level) v others
      have size := congrArg List.length start
      rw [List.length_append] at size
      by_cases here : depth < v.nesting
      · obtain ⟨container, refused⟩ := refuses v List.mem_cons_self here level fuel p
          (onward ++ 0x5D :: rest) (by omega)
        refine ⟨container, ?_⟩
        rw [start, List.append_assoc, Reader.items, refused]
        rfl
      · have reads := value_write ((plain v List.mem_cons_self).storable (Nat.le_of_not_lt here))
        cases others with
        | nil => exact absurd deep (by simpa using here)
        | cons w others =>
            have next := (plain w (by simp)).storable (Nat.le_refl _)
            obtain ⟨q, step⟩ := items_step others reads next level fuel p read rest (by omega)
            obtain ⟨u, member, far⟩ := deep
            have later := (List.mem_cons.mp member).resolve_left fun same => here (same ▸ far)
            obtain ⟨container, run⟩ := ih (fun u inside => plain u (List.mem_cons_of_mem _ inside))
              (fun u inside => refuses u (List.mem_cons_of_mem _ inside)) ⟨u, later, far⟩
              level fuel q (v.inOrder :: read) rest (by
                rw [List.map_cons, joined_comma _ _ (by simp), List.length_append,
                  List.length_cons] at enough
                omega)
            exact ⟨container, step.trans run⟩

/-- Members are refused at the first one whose value is nested too deeply. -/
theorem members_refuse : ∀ (ms : List (Text × Json)), (∀ m ∈ ms, m.2.IsPlain) →
    (∀ m ∈ ms, depth < m.2.nesting → Refuses depth m.2) → (∃ m ∈ ms, depth < m.2.nesting) →
    ∀ (level fuel p : Nat) (read : List (Text × Json)) (rest : Text),
    (Text.joined [0x2C] (ms.map (Style.member level))).length < fuel →
    ∃ container, Reader.members depth fuel read
      ⟨p, Text.joined [0x2C] (ms.map (Style.member level)) ++ 0x7D :: rest⟩ =
        .error (.tooDeep container) := by
  intro ms
  induction ms with
  | nil => exact fun _ _ none => absurd none (by simp)
  | cons m others ih =>
      intro plain refuses deep level fuel p read rest enough
      obtain ⟨fuel, rfl⟩ := Nat.exists_eq_add_one_of_ne_zero (show fuel ≠ 0 by omega)
      have some : 0 < (Style.canonical.string m.1).length := by simp [Style.string_eq]
      have here : (Style.member level m).length = (Style.canonical.string m.1).length +
          ((Style.canonical.write level m.2).length + 1) := by
        rw [Style.member, List.length_append, List.length_cons]
      have storable := (plain m List.mem_cons_self).storable (Nat.le_refl _)
      by_cases far : depth < m.2.nesting
      · obtain ⟨onward, start⟩ := joined_head (Style.member level) m others
        have size := congrArg List.length start
        rw [List.length_append] at size
        obtain ⟨q, name⟩ := key_write storable level m.1 p (onward ++ 0x7D :: rest)
        obtain ⟨container, refused⟩ := refuses m List.mem_cons_self far level fuel q
          (onward ++ 0x7D :: rest) (by omega)
        refine ⟨container, ?_⟩
        rw [start]
        simp only [Style.member, List.append_assoc, List.cons_append]
        rw [Reader.members, name]
        simp only [bind, Except.bind]
        rw [refused]
      · have reads := value_write ((plain m List.mem_cons_self).storable (Nat.le_of_not_lt far))
        cases others with
        | nil => exact absurd deep (by simpa using far)
        | cons w others =>
            rw [List.map_cons, joined_comma _ _ (by simp), List.length_append,
              List.length_cons] at enough
            obtain ⟨q, step⟩ := members_step w others storable reads level fuel p read rest
              (by omega)
            obtain ⟨u, member, farther⟩ := deep
            have later := (List.mem_cons.mp member).resolve_left fun same => far (same ▸ farther)
            obtain ⟨container, run⟩ := ih (fun u inside => plain u (List.mem_cons_of_mem _ inside))
              (fun u inside => refuses u (List.mem_cons_of_mem _ inside)) ⟨u, later, farther⟩
              level fuel q ((m.1, m.2.inOrder) :: read) rest (by omega)
            exact ⟨container, step.trans run⟩

/-- The reader refuses the written form of a value that is nested too deeply. -/
theorem refuses_of_deep {v : Json} (h : v.IsPlain) (deep : depth < v.nesting) : Refuses depth v := by
  induction h generalizing depth with
  | null => exact absurd deep (by simp [nesting])
  | bool b => exact absurd deep (by simp [nesting])
  | int _ => exact absurd deep (by simp [nesting])
  | str _ => exact absurd deep (by simp [nesting])
  | @arr items plain ih =>
      intro level fuel p rest enough
      obtain ⟨fuel, rfl⟩ := Nat.exists_eq_add_one_of_ne_zero (show fuel ≠ 0 by omega)
      cases depth with
      | zero =>
          rw [Style.write_arr]
          exact ⟨_, rfl⟩
      | succ depth =>
          rw [nesting, Nat.add_lt_add_iff_right, ← Nat.not_le, itemsNesting_le] at deep
          obtain ⟨u, member, far⟩ : ∃ u ∈ items, depth < u.nesting := by simpa using deep
          obtain ⟨v, others, rfl⟩ := List.exists_cons_of_ne_nil (List.ne_nil_of_mem member)
          rw [Style.write_arr] at enough
          simp only [List.length_cons, List.length_append] at enough
          obtain ⟨container, run⟩ := items_refuse (v :: others) plain
            (fun w inside far => ih w inside far) ⟨u, member, far⟩ (level + 1) fuel (p + 1) [] rest
            (by omega)
          have first := (plain v List.mem_cons_self).storable (Nat.le_refl _)
          exact ⟨container, (value_write_arr first level).trans run⟩
  | @obj members distinct _ plain ih =>
      intro level fuel p rest enough
      obtain ⟨fuel, rfl⟩ := Nat.exists_eq_add_one_of_ne_zero (show fuel ≠ 0 by omega)
      cases depth with
      | zero =>
          rw [Style.write_obj]
          exact ⟨_, rfl⟩
      | succ depth =>
          rw [nesting, Nat.add_lt_add_iff_right, ← Nat.not_le, membersNesting_le] at deep
          obtain ⟨k, u, member, far⟩ : ∃ k u, (k, u) ∈ members ∧ depth < u.nesting := by
            simpa using deep
          rw [Style.write_obj] at enough
          simp only [List.length_cons, List.length_append] at enough
          obtain ⟨container, run⟩ := members_refuse (Style.inKeyOrder members)
            (fun m inside => plain m (Style.mem_inKeyOrder.mp inside))
            (fun m inside far => ih m (Style.mem_inKeyOrder.mp inside) far)
            ⟨(k, u), Style.mem_inKeyOrder.mpr member, far⟩ (level + 1) fuel (p + 1) [] rest (by omega)
          exact ⟨container, (value_write_obj (List.ne_nil_of_mem member) level).trans run⟩

end Reader

/-- The canonical text of a plain value that is nested too deeply is refused for that. -/
theorem read_of_deep {v : Json} (h : v.IsPlain) (deep : nestingLimit < v.nesting) :
    ∃ container, read v.canonicalText = .error (.tooDeep container) := by
  obtain ⟨container, run⟩ := Reader.refuses_of_deep h deep 0
    (2 * (v.canonicalText ++ []).length + 2) 0 []
    (by rw [canonicalText, List.append_nil]; omega)
  refine ⟨container, ?_⟩
  have document := document_write (h.storable (Nat.le_refl _)) []
  rw [run, List.append_nil] at document
  rw [read, document]
  rfl

end ModulePackaging.Json
