import ModulePackaging.Proofs.Actions
import ModulePackaging.Proofs.Json.Encodable
import ModulePackaging.Proofs.Pieces

/-!
# Values in files

A value that is stored in a file, in its canonical form with a line end, is read back with its keys
in order: there is no control character in a canonical text, so no line end in it is unified.
-/

namespace ModulePackaging

namespace Text

/-- Without carriage returns there are no line ends to unify. -/
theorem unifyLineEnds_of_none {t : Text} (none : ∀ c ∈ t, c ≠ 0x0D) : t.unifyLineEnds = t := by
  unfold unifyLineEnds
  induction t with
  | nil => rfl
  | cons c rest ih =>
      obtain ⟨first, others⟩ := List.forall_mem_cons.mp none
      rw [unifyAfter, if_neg first, if_neg (by simp), ih others]

/-- A text without control characters. -/
def IsPrinting (t : Text) : Prop := ∀ c ∈ t, 0x20 ≤ c.val

theorem isPrinting_of_all {t : Text} (h : (t.all fun c => 0x20 ≤ c.val) = true) : t.IsPrinting := by
  intro c member
  exact of_decide_eq_true (List.all_eq_true.mp h c member)

theorem isPrinting_cons {c : CodePoint} {t : Text} :
    IsPrinting (c :: t) ↔ 0x20 ≤ c.val ∧ IsPrinting t := List.forall_mem_cons

theorem isPrinting_append {t u : Text} : IsPrinting (t ++ u) ↔ IsPrinting t ∧ IsPrinting u :=
  List.forall_mem_append

theorem isPrinting_joined {sep : Text} (plain : sep.IsPrinting) {pieces : List Text}
    (all : ∀ piece ∈ pieces, piece.IsPrinting) : (joined sep pieces).IsPrinting := by
  intro c member
  rcases mem_joined member with inside | ⟨piece, here, inside⟩
  · exact plain c inside
  · exact all piece here c inside

theorem isPrinting_ofNat (n : Nat) : (ofNat n).IsPrinting := by
  intro c member
  have digit := isAsciiDigit_of_mem_ofNat n c member
  simp only [CodePoint.isAsciiDigit, Bool.and_eq_true, decide_eq_true_eq] at digit
  omega

theorem isPrinting_ofInt (n : Int) : (ofInt n).IsPrinting := by
  cases n with
  | ofNat n => exact isPrinting_ofNat n
  | negSucc n => exact isPrinting_cons.mpr ⟨by decide, isPrinting_ofNat (n + 1)⟩

end Text

namespace Json

theorem printing_hexDigit {d : Nat} (h : d < 16) : 0x20 ≤ (Text.hexDigit d).val := by
  have all : ∀ d : Fin 16, 0x20 ≤ (Text.hexDigit d).val := by decide
  exact all ⟨d, h⟩

theorem printing_escapeControls (c : CodePoint) : (escapeControls c).IsPrinting := by
  rcases escapeControls_cases c with ⟨letter, known, _, _, _, form⟩ | ⟨_, form⟩ | ⟨_, _, high, form⟩
  · rw [form, Text.isPrinting_cons, Text.isPrinting_cons]
    refine ⟨by decide, ?_, List.forall_mem_nil _⟩
    have none : ∀ n : Fin 0x20, Reader.escaped? (CodePoint.ofNat n) = none := by decide
    by_contra low
    have nothing := none ⟨letter.val, by omega⟩
    rw [CodePoint.ofNat_val, known] at nothing
    exact absurd nothing (by simp)
  · rw [form]
    show Text.IsPrinting (0x5C :: 0x75 :: Text.hexDigits 4 c.val)
    rw [hexDigits_four]
    simp only [Text.isPrinting_cons, printing_hexDigit (Nat.mod_lt _ (show 0 < 16 by decide)),
      true_and]
    exact ⟨by decide, by decide, List.forall_mem_nil _⟩
  · rw [form]
    exact Text.isPrinting_cons.mpr ⟨by omega, List.forall_mem_nil _⟩

theorem printing_string (t : Text) : (Style.canonical.string t).IsPrinting := by
  rw [Style.string_eq, Text.isPrinting_cons, Text.isPrinting_append, Text.isPrinting_cons]
  refine ⟨by decide, ?_, by decide, List.forall_mem_nil _⟩
  intro c member
  obtain ⟨d, _, inside⟩ := List.mem_flatMap.mp member
  exact printing_escapeControls d c inside

/-- A canonical text has no control characters. -/
theorem printing_write {depth : Nat} {v : Json} (h : Storable depth v) (level : Nat) :
    (Style.canonical.write level v).IsPrinting := by
  have comma : Text.IsPrinting [0x2C] := Text.isPrinting_of_all (by decide)
  induction h generalizing level with
  | null =>
      show (Style.canonical.write 0 .null).IsPrinting
      exact Text.isPrinting_of_all (by decide)
  | bool b =>
      cases b with
      | true =>
          show (Style.canonical.write 0 (.bool true)).IsPrinting
          exact Text.isPrinting_of_all (by decide)
      | false =>
          show (Style.canonical.write 0 (.bool false)).IsPrinting
          exact Text.isPrinting_of_all (by decide)
  | int _ => exact Text.isPrinting_ofInt _
  | str t => exact printing_string t
  | @arr _ items _ ih =>
      rw [Style.write_arr, Text.isPrinting_cons, Text.isPrinting_append, Text.isPrinting_cons]
      refine ⟨by decide, Text.isPrinting_joined comma ?_, by decide, List.forall_mem_nil _⟩
      intro piece member
      obtain ⟨v, inside, rfl⟩ := List.mem_map.mp member
      exact ih v inside _
  | @obj _ members _ _ ih =>
      rw [Style.write_obj, Text.isPrinting_cons, Text.isPrinting_append, Text.isPrinting_cons]
      refine ⟨by decide, Text.isPrinting_joined comma ?_, by decide, List.forall_mem_nil _⟩
      intro piece member
      obtain ⟨m, inside, rfl⟩ := List.mem_map.mp member
      rw [Style.member, Text.isPrinting_append, Text.isPrinting_cons]
      exact ⟨printing_string m.1, by decide, ih m (Style.mem_inKeyOrder.mp inside) _⟩

/-- The value of the bytes of a file. -/
def ofFile (content : Bytes) : Except Fault Json := do
  let t ← (Utf8.decode content).mapError .undecodable
  (read t.unifyLineEnds).mapError .json

/-- Reading a value only looks at the file. -/
theorem outcome_readJson (p : Path) (w : Workspace) :
    (Action.readJson p).outcome w = ((w.files.read p).mapError .files >>= ofFile, w) := by
  unfold Action.readJson Action.readText
  rw [Action.outcome_bind, Action.outcome_bind, Action.outcome_ask]
  cases w.files.read p with
  | error e => rfl
  | ok content =>
      simp only [mapError_ok]
      rw [Action.outcome_bind, Action.outcome_ofExcept]
      show _ = (ofFile content, w)
      unfold ofFile
      cases Utf8.decode content with
      | error e => rfl
      | ok t => exact Action.outcome_ofExcept _ _ w

/-- A stored value with a line end behind it is read back with its keys in order. -/
theorem ofFile_storedBytes {v : Json} {bytes : Bytes} (h : Storable nestingLimit v)
    (stored : v.storedBytes = .ok bytes) : ofFile (bytes ++ [0x0A]) = .ok v.inOrder := by
  obtain ⟨encodable, rfl⟩ := Utf8.encode_eq_ok.mp (storedBytes_eq_ok.mp stored).2
  have line : Text.IsEncodable [0x0A] := Text.isEncodable_singleton (by decide)
  have decoded : Utf8.decode (v.canonicalText.flatMap Utf8.encodePoint ++ [0x0A]) =
      .ok (v.canonicalText ++ [0x0A]) := by
    rw [← Utf8.decode_flatMap (Text.isEncodable_append.mpr ⟨encodable, line⟩), List.flatMap_append]
    rfl
  have unified : (v.canonicalText ++ [0x0A]).unifyLineEnds = v.canonicalText ++ [0x0A] := by
    apply Text.unifyLineEnds_of_none
    intro c member
    rcases List.mem_append.mp member with inside | inside
    · rintro rfl
      exact absurd (printing_write h 0 _ inside) (by decide)
    · rw [List.mem_singleton.mp inside]
      decide
  have blank : ∀ c ∈ ([0x0A] : Text), Reader.isSpace c = true := by
    intro c member
    rw [List.mem_singleton.mp member]
    decide
  have read : Json.read (v.canonicalText ++ [0x0A]) = .ok v.inOrder := read_canonicalText h blank
  unfold ofFile
  rw [decoded]
  show (Json.read (v.canonicalText ++ [0x0A]).unifyLineEnds).mapError _ = _
  rw [unified, read]
  rfl

end Json

end ModulePackaging
