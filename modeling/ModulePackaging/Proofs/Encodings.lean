import ModulePackaging.Digest.Sha256
import ModulePackaging.Encoding.Base64
import ModulePackaging.Proofs.Utf8

/-!
# Hexadecimal and base 64 round trips

Bytes that are written as letters are read back as the same bytes. Both readers are state machines,
so each round trip is an induction over the bytes, one written group at a time.
-/

namespace ModulePackaging

theorem toUInt8_toNat (b : UInt8) : b.toNat.toUInt8 = b := UInt8.ofNat_toNat

/-! ## Hexadecimal -/

namespace Hex

theorem value?_hexDigit {d : Nat} (h : d < 16) : value? (Text.hexDigit d) = some d := by
  have all : ∀ d : Fin 16, value? (Text.hexDigit d) = some d.val := by decide
  exact all ⟨d, h⟩

theorem hexDigits_two (n : Nat) :
    Text.hexDigits 2 n = [Text.hexDigit (n / 16 % 16), Text.hexDigit (n % 16)] := by
  simp [Text.hexDigits]

/-- Two digits are read as the byte that they stand for. -/
theorem decodeFrom_hexDigits (position : Nat) (read : Bytes) (b : UInt8) (rest : Text) :
    decodeFrom position none read (Text.hexDigits 2 b.toNat ++ rest) =
      decodeFrom (position + 1 + 1) none (b :: read) rest := by
  have bound := b.toNat_lt
  rw [hexDigits_two]
  simp only [List.cons_append, List.nil_append, decodeFrom,
    value?_hexDigit (Nat.mod_lt _ (show 0 < 16 by decide))]
  rw [show 16 * (b.toNat / 16 % 16) + b.toNat % 16 = b.toNat by omega, toUInt8_toNat]

theorem decodeFrom_encode (position : Nat) (read bytes : Bytes) :
    decodeFrom position none read (encode bytes) = .ok (read.reverse ++ bytes) := by
  induction bytes generalizing position read with
  | nil => simp [encode, decodeFrom]
  | cons b rest ih =>
      show decodeFrom position none read (Text.hexDigits 2 b.toNat ++ encode rest) = _
      rw [decodeFrom_hexDigits, ih]
      simp

theorem ascii_of_mem_encode (bytes : Bytes) : ∀ c ∈ encode bytes, c.val < 0x80 := by
  intro c member
  obtain ⟨b, _, member⟩ := List.mem_flatMap.mp member
  have all : ∀ d : Fin 16, (Text.hexDigit d).val < 0x80 := by decide
  rw [hexDigits_two] at member
  rcases List.mem_cons.mp member with rfl | member
  · exact all ⟨_, Nat.mod_lt _ (by decide)⟩
  · rw [List.mem_singleton.mp member]
    exact all ⟨_, Nat.mod_lt _ (by decide)⟩

/-- Bytes written as hexadecimal digits are read back. -/
theorem decode_encode (bytes : Bytes) : decode (encode bytes) = .ok bytes := by
  have ascii : (encode bytes).any (0x80 ≤ ·.val) = false := by
    rw [List.any_eq_false]
    intro c member
    have low := ascii_of_mem_encode bytes c member
    simp only [decide_eq_true_eq]
    omega
  rw [decode, ascii, if_neg Bool.false_ne_true, decodeFrom_encode]
  rfl

end Hex

/-! ## Base 64 -/

namespace Base64

/-- The byte of a letter. -/
def letterByte (n : Nat) : UInt8 := (letter n).val.toUInt8

theorem letterByte_spec {n : Nat} (h : n < 64) :
    letterByte n ≠ 0x3D ∧ value? (letterByte n) = some n ∧ (letter n).val < 0x80 := by
  have all : ∀ n : Fin 64, letterByte n ≠ 0x3D ∧ value? (letterByte n) = some n.val ∧
      (letter n).val < 0x80 := by decide
  exact all ⟨n, h⟩

/-- A letter is taken in, as long as there was no padding. -/
theorem decodeFrom_letter {s : State} (open_ : s.padded = false) {n : Nat} (h : n < 64)
    (rest : Bytes) : decodeFrom s (letterByte n :: rest) = decodeFrom (s.next n) rest := by
  obtain ⟨sign, number, _⟩ := letterByte_spec h
  rw [decodeFrom, if_neg sign, number]
  simp only
  rw [open_, if_neg Bool.false_ne_true]

/-- The bits of the first two letters make up the first byte of a group. -/
theorem firstByte (a b : UInt8) :
    (a.toNat / 4 * 4 + (a.toNat % 4 * 16 + b.toNat / 16) / 16).toUInt8 = a := by
  have bound := b.toNat_lt
  rw [show a.toNat / 4 * 4 + (a.toNat % 4 * 16 + b.toNat / 16) / 16 = a.toNat by omega,
    toUInt8_toNat]

theorem secondByte (a b c : UInt8) :
    ((a.toNat % 4 * 16 + b.toNat / 16) % 16 * 16 + (b.toNat % 16 * 4 + c.toNat / 64) / 4).toUInt8 =
      b := by
  have boundB := b.toNat_lt
  have boundC := c.toNat_lt
  rw [show (a.toNat % 4 * 16 + b.toNat / 16) % 16 * 16 + (b.toNat % 16 * 4 + c.toNat / 64) / 4 =
    b.toNat by omega, toUInt8_toNat]

theorem thirdByte (b c : UInt8) :
    ((b.toNat % 16 * 4 + c.toNat / 64) % 4 * 64 + c.toNat % 64).toUInt8 = c := by
  have bound := c.toNat_lt
  rw [show (b.toNat % 16 * 4 + c.toNat / 64) % 4 * 64 + c.toNat % 64 = c.toNat by omega,
    toUInt8_toNat]

/-- From the start of a group on, the letters of bytes are read as the bytes. -/
theorem decodeFrom_encode (bytes : Bytes) : ∀ read : Bytes,
    decodeFrom ⟨0, 0, 0, false, read⟩ ((encode bytes).map fun c => c.val.toUInt8) =
      .ok (read.reverse ++ bytes) := by
  induction bytes using encode.induct with
  | case1 =>
      intro read
      simp [encode, decodeFrom]
  | case2 a =>
      -- A byte is left over: two letters, with padding for the other two.
      intro read
      have bound := a.toNat_lt
      show decodeFrom _ (letterByte _ :: letterByte _ :: 0x3D :: 0x3D :: []) = _
      rw [decodeFrom_letter rfl (by omega), decodeFrom_letter rfl (by omega)]
      show Except.ok ((a.toNat / 4 * 4 + (a.toNat % 4 * 16 + (0 : UInt8).toNat / 16) / 16).toUInt8 ::
        read).reverse = _
      rw [firstByte, List.reverse_cons]
  | case3 a b =>
      -- Two bytes are left over: three letters, with padding for the last.
      intro read
      have boundA := a.toNat_lt
      have boundB := b.toNat_lt
      show decodeFrom _ (letterByte _ :: letterByte _ :: letterByte _ :: 0x3D :: []) = _
      rw [decodeFrom_letter rfl (by omega), decodeFrom_letter rfl (by omega),
        decodeFrom_letter rfl (by omega)]
      show Except.ok (((a.toNat % 4 * 16 + b.toNat / 16) % 16 * 16 +
          (b.toNat % 16 * 4 + (0 : UInt8).toNat / 64) / 4).toUInt8 ::
        (a.toNat / 4 * 4 + (a.toNat % 4 * 16 + b.toNat / 16) / 16).toUInt8 :: read).reverse = _
      rw [firstByte, secondByte]
      simp
  | case4 a b c rest ih =>
      -- Three bytes are four letters, behind which a new group starts.
      intro read
      have boundA := a.toNat_lt
      have boundB := b.toNat_lt
      have boundC := c.toNat_lt
      show decodeFrom _ (letterByte _ :: letterByte _ :: letterByte _ :: letterByte _ ::
        (encode rest).map fun c => c.val.toUInt8) = _
      rw [decodeFrom_letter rfl (by omega), decodeFrom_letter rfl (by omega),
        decodeFrom_letter rfl (by omega), decodeFrom_letter rfl (by omega)]
      show decodeFrom ⟨0, 0, 0, false,
        ((b.toNat % 16 * 4 + c.toNat / 64) % 4 * 64 + c.toNat % 64).toUInt8 ::
        ((a.toNat % 4 * 16 + b.toNat / 16) % 16 * 16 +
          (b.toNat % 16 * 4 + c.toNat / 64) / 4).toUInt8 ::
        (a.toNat / 4 * 4 + (a.toNat % 4 * 16 + b.toNat / 16) / 16).toUInt8 :: read⟩ _ = _
      rw [firstByte, secondByte, thirdByte, ih]
      simp

/-- What bytes are written with: letters and padding. -/
theorem mem_encode {bytes : Bytes} {c : CodePoint} (h : c ∈ encode bytes) :
    c = padding ∨ ∃ n < 64, c = letter n := by
  induction bytes using encode.induct with
  | case1 => exact absurd h List.not_mem_nil
  | case2 a =>
      have bound := a.toNat_lt
      simp only [encode, List.mem_cons, List.not_mem_nil, or_false] at h
      rcases h with rfl | rfl | rfl | rfl
      · exact .inr ⟨_, by omega, rfl⟩
      · exact .inr ⟨_, by omega, rfl⟩
      · exact .inl rfl
      · exact .inl rfl
  | case3 a b =>
      have boundA := a.toNat_lt
      have boundB := b.toNat_lt
      simp only [encode, List.mem_cons, List.not_mem_nil, or_false] at h
      rcases h with rfl | rfl | rfl | rfl
      · exact .inr ⟨_, by omega, rfl⟩
      · exact .inr ⟨_, by omega, rfl⟩
      · exact .inr ⟨_, by omega, rfl⟩
      · exact .inl rfl
  | case4 a b c rest ih =>
      have boundA := a.toNat_lt
      have boundB := b.toNat_lt
      have boundC := c.toNat_lt
      simp only [encode, List.mem_cons] at h
      rcases h with rfl | rfl | rfl | rfl | later
      · exact .inr ⟨_, by omega, rfl⟩
      · exact .inr ⟨_, by omega, rfl⟩
      · exact .inr ⟨_, by omega, rfl⟩
      · exact .inr ⟨_, by omega, rfl⟩
      · exact ih later

theorem ascii_of_mem_encode (bytes : Bytes) : ∀ c ∈ encode bytes, c.val < 0x80 := by
  intro c member
  rcases mem_encode member with rfl | ⟨n, small, rfl⟩
  · decide
  · exact (letterByte_spec small).2.2

/-- No text of letters starts with padding. -/
theorem head?_encode (bytes : Bytes) :
    (((encode bytes).map fun c => c.val.toUInt8).head? == some 0x3D) = false := by
  have other : ∀ n, n < 64 → (some (letterByte n) == some 0x3D) = false := by
    intro n h
    simpa using (letterByte_spec h).1
  cases bytes with
  | nil => rfl
  | cons a rest =>
      have bound := a.toNat_lt
      have first := other (a.toNat / 4) (by omega)
      match rest with
      | [] => exact first
      | [_] => exact first
      | _ :: _ :: _ => exact first

/-- Bytes written as letters are read back. -/
theorem decode_encode (bytes : Bytes) : decode (encode bytes) = .ok bytes := by
  have ascii : (encode bytes).asciiBytes = .ok ((encode bytes).map fun c => c.val.toUInt8) := by
    have covered : Codec.ascii.firstMissing? (encode bytes) = none := by
      rw [Codec.firstMissing?_eq_none]
      intro c member
      have low := ascii_of_mem_encode bytes c member
      simp only [Codec.lacks, decide_eq_false_iff_not]
      omega
    rw [Text.asciiBytes, covered]
  rw [decode, ascii]
  simp only
  rw [decodeBytes, head?_encode, if_neg Bool.false_ne_true, decodeFrom_encode]
  rfl

end Base64

/-! ## Digests -/

namespace Sha256

theorem length_bigEndian (n value : Nat) : (bigEndian n value).length = n := by
  induction n generalizing value with
  | zero => rfl
  | succ n ih => rw [bigEndian, List.length_append, ih, List.length_singleton]

/-- A digest has 32 bytes. -/
theorem length_digest (message : Bytes) : (digest message).length = 32 := by
  simp [digest, Words.toBytes, length_bigEndian]

/-- Two different messages that have one digest. -/
def Collide (a b : Bytes) : Prop := a ≠ b ∧ digest a = digest b

/-- Messages with one digest are the same, unless they collide. -/
theorem eq_or_collide {a b : Bytes} (h : digest a = digest b) : a = b ∨ Collide a b := by
  by_cases same : a = b
  · exact .inl same
  · exact .inr ⟨same, h⟩

/-- The label of a message tells its digest. -/
theorem digest_eq_of_label_eq {a b : Bytes} (h : label a = label b) : digest a = digest b := by
  have digits : Hex.encode (digest a) = Hex.encode (digest b) := List.append_cancel_left h
  have read := Hex.decode_encode (digest a)
  rw [digits, Hex.decode_encode] at read
  exact (Except.ok.inj read).symm

end Sha256

end ModulePackaging
