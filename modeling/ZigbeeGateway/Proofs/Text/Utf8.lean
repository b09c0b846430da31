-- UTF-8 reads back: the bytes of a text fall into whole characters, those of the text.
import ZigbeeGateway.Text.Utf8
namespace ZigbeeGateway.Utf8

/-! ## Bytes that continue a character -/

/-- The byte that continues a character with the lowest six bits of a number. -/
def continuation (bits : Nat) : UInt8 := UInt8.ofNat (bits % 64 + 128)

theorem toNat_continuation (bits : Nat) : (continuation bits).toNat = bits % 64 + 128 := by
  have := Nat.mod_lt bits (show 0 < 64 by decide)
  rw [continuation, UInt8.toNat_ofNat']
  omega

theorem isContinuation_continuation (bits : Nat) : isContinuation (continuation bits) = true := by
  have := Nat.mod_lt bits (show 0 < 64 by decide)
  have hlow : (0x80 : UInt8).toNat = 128 := rfl
  have hhigh : (0xbf : UInt8).toNat = 191 := rfl
  simp only [isContinuation, Bool.and_eq_true, decide_eq_true_eq, UInt8.le_iff_toNat_le,
    toNat_continuation]
  omega

theorem payload_continuation (bits : Nat) : payload (continuation bits) = bits % 64 := by
  rw [payload, toNat_continuation]
  omega

theorem finish_continuation (count bits more : Nat) (rest : Bytes) :
    finish (count + 1) bits (continuation more :: rest) =
      finish count (bits * 64 + more % 64) rest := by
  rw [finish, isContinuation_continuation, if_pos rfl, payload_continuation]

theorem piece_continuation {lead : UInt8} {count bits more : Nat}
    (hlead : lead? lead = some (count + 1, bits))
    (hmore : mayFollow lead (continuation more) = true) (rest : Bytes) :
    piece lead (continuation more :: rest) = finish count (bits * 64 + more % 64) rest := by
  simp only [piece, hlead, hmore, if_true, payload_continuation]

/-! ## Bytes that lead a character -/

theorem lead?_one {n : Nat} (h : n < 128) : lead? (UInt8.ofNat n) = some (0, n) := by
  have hall : ∀ n < 128, lead? (UInt8.ofNat n) = some (0, n) := by decide
  exact hall n h

theorem lead?_two {bits : Nat} (hlow : 2 ≤ bits) (h : bits < 32) :
    lead? (UInt8.ofNat (bits + 192)) = some (1, bits) := by
  have hall : ∀ bits < 32, 2 ≤ bits → lead? (UInt8.ofNat (bits + 192)) = some (1, bits) := by
    decide
  exact hall bits h hlow

theorem lead?_three {bits : Nat} (h : bits < 16) :
    lead? (UInt8.ofNat (bits + 224)) = some (2, bits) := by
  have hall : ∀ bits < 16, lead? (UInt8.ofNat (bits + 224)) = some (2, bits) := by decide
  exact hall bits h

theorem lead?_four {bits : Nat} (h : bits < 5) :
    lead? (UInt8.ofNat (bits + 240)) = some (3, bits) := by
  have hall : ∀ bits < 5, lead? (UInt8.ofNat (bits + 240)) = some (3, bits) := by decide
  exact hall bits h

/-- Two bytes always continue one another. -/
theorem mayFollow_two {bits : Nat} (h : bits < 32) (more : Nat) :
    mayFollow (UInt8.ofNat (bits + 192)) (continuation more) = true := by
  have hall : ∀ bits < 32, ∀ more < 64,
      mayFollow (UInt8.ofNat (bits + 192)) (UInt8.ofNat (more + 128)) = true := by decide +kernel
  exact hall bits h _ (Nat.mod_lt more (by decide))

/-- In three bytes the second one shows that the form is not overlong and no surrogate. -/
theorem mayFollow_three {n : Nat} (hlow : 0x800 ≤ n) (hhigh : n < 0x10000)
    (hvalid : n < 0xd800 ∨ 0xdfff < n) :
    mayFollow (UInt8.ofNat (n / 4096 % 16 + 224)) (continuation (n / 64)) = true := by
  have hall : ∀ bits < 16, ∀ more < 64, (bits = 0 → 32 ≤ more) → (bits = 13 → more < 32) →
      mayFollow (UInt8.ofNat (bits + 224)) (UInt8.ofNat (more + 128)) = true := by decide +kernel
  exact hall (n / 4096 % 16) (by omega) (n / 64 % 64) (by omega) (by omega) (by omega)

/-- In four bytes the second one shows that the form is not overlong and the number a code point. -/
theorem mayFollow_four {n : Nat} (hlow : 0x10000 ≤ n) (hhigh : n < 0x110000) :
    mayFollow (UInt8.ofNat (n / 262144 % 8 + 240)) (continuation (n / 4096)) = true := by
  have hall : ∀ bits < 5, ∀ more < 64, (bits = 0 → 16 ≤ more) → (bits = 4 → more < 16) →
      mayFollow (UInt8.ofNat (bits + 240)) (UInt8.ofNat (more + 128)) = true := by decide +kernel
  exact hall (n / 262144 % 8) (by omega) (n / 4096 % 64) (by omega) (by omega) (by omega)

/-! ## Characters and texts -/

/-- The bytes of a character, by its number. -/
theorem encodeChar_eq (c : Char) : String.utf8EncodeChar c =
    if c.toNat ≤ 0x7f then [UInt8.ofNat c.toNat]
    else if c.toNat ≤ 0x7ff then [UInt8.ofNat (c.toNat / 64 % 32 + 192), continuation c.toNat]
    else if c.toNat ≤ 0xffff then [UInt8.ofNat (c.toNat / 4096 % 16 + 224),
      continuation (c.toNat / 64), continuation c.toNat]
    else [UInt8.ofNat (c.toNat / 262144 % 8 + 240), continuation (c.toNat / 4096),
      continuation (c.toNat / 64), continuation c.toNat] := rfl

theorem pieces_cons {lead : UInt8} {more rest : Bytes} {p : Piece}
    (h : piece lead more = (p, rest)) : pieces (lead :: more) = p :: pieces rest := by
  rw [pieces, h]

/-- The bytes of a character are read as this character, and no byte behind them. -/
theorem pieces_encodeChar (c : Char) (rest : Bytes) :
    pieces (String.utf8EncodeChar c ++ rest) = .char c :: pieces rest := by
  have hvalid : c.toNat < 0xd800 ∨ 0xdfff < c.toNat ∧ c.toNat < 0x110000 := c.valid
  have hc : Char.ofNat c.toNat = c := Char.ofNat_toNat c
  rw [encodeChar_eq]
  generalize c.toNat = n at hvalid hc ⊢
  split
  next h =>
    rw [List.cons_append, List.nil_append]
    apply pieces_cons
    simp only [piece, lead?_one (show n < 128 by omega), finish, hc]
  next h₁ =>
    split
    next h =>
      simp only [List.cons_append, List.nil_append]
      apply pieces_cons
      have hbits : n / 64 % 32 * 64 + n % 64 = n := by omega
      rw [piece_continuation (lead?_two (by omega) (by omega)) (mayFollow_two (by omega) n), hbits,
        finish, hc]
    next h₂ =>
      split
      next h =>
        simp only [List.cons_append, List.nil_append]
        apply pieces_cons
        have hbits : (n / 4096 % 16 * 64 + n / 64 % 64) * 64 + n % 64 = n := by omega
        rw [piece_continuation (lead?_three (by omega))
          (mayFollow_three (by omega) (by omega) (by omega)), finish_continuation, hbits, finish,
          hc]
      next h₃ =>
        simp only [List.cons_append, List.nil_append]
        apply pieces_cons
        have hbits :
            ((n / 262144 % 8 * 64 + n / 4096 % 64) * 64 + n / 64 % 64) * 64 + n % 64 = n := by
          omega
        rw [piece_continuation (lead?_four (by omega)) (mayFollow_four (by omega) (by omega)),
          finish_continuation, finish_continuation, hbits, finish, hc]

/-- The bytes of a text fall into its characters. -/
theorem pieces_encode (cs : List Char) : pieces (encode cs) = cs.map .char := by
  induction cs with
  | nil => simp [encode, pieces]
  | cons c cs ih =>
    rw [encode, List.flatMap_cons, pieces_encodeChar]
    exact congrArg _ ih

theorem decodeLossy_encode (cs : List Char) : decodeLossy (encode cs) = cs := by
  rw [decodeLossy, pieces_encode, List.map_map]
  exact List.map_id cs

end ZigbeeGateway.Utf8
