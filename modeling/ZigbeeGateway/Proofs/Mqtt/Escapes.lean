-- Percent escapes are undone, whatever text they are made from, at its end and inside characters of
-- several bytes too.
import ZigbeeGateway.Mqtt.Url
import ZigbeeGateway.Proofs.Text.Digits
import ZigbeeGateway.Proofs.Text.Utf8
namespace ZigbeeGateway.Mqtt.Url

/-! ## Texts with escapes -/

/-- Bytes with escapes. A letter or a digit may stand for itself, and every byte may stand as a
percent sign and its two hex digits, with letters of either case. -/
inductive Escaped : Bytes → List Char → Prop
  | nil : Escaped [] []
  | plain {c : Char} {bs : Bytes} {cs : List Char} :
      c.isAlphanum → Escaped bs cs → Escaped (UInt8.ofNat c.toNat :: bs) (c :: cs)
  | escape {b : UInt8} {high low : Char} {bs : Bytes} {cs : List Char} :
      Numeral.digit? 16 high = some (b.toNat / 16) → Numeral.digit? 16 low = some (b.toNat % 16) →
      Escaped bs cs → Escaped (b :: bs) ('%' :: high :: low :: cs)

/-- A text with escapes for bytes of its UTF-8. -/
def EscapedText (text : String) (cs : List Char) : Prop := Escaped (Utf8.encode text.toList) cs

/-- A byte as it is if it is a letter or a digit, else with an escape. -/
def escapeByte (b : UInt8) : List Char :=
  if (Char.ofNat b.toNat).isAlphanum then [Char.ofNat b.toNat]
  else '%' :: Numeral.upperHex 2 b.toNat

/-- A text in which every byte but the letters and digits is an escape. -/
def escape (text : String) : List Char := (Utf8.encode text.toList).flatMap escapeByte

theorem escaped_escapeByte (b : UInt8) {bs : Bytes} {cs : List Char} (h : Escaped bs cs) :
    Escaped (b :: bs) (escapeByte b ++ cs) := by
  have hb := b.toNat_lt
  have hplain : ∀ n < 256, UInt8.ofNat (Char.ofNat n).toNat = UInt8.ofNat n := by decide +kernel
  have hhex : ∀ n < 256, Numeral.upperHex 2 n =
      [(Numeral.digitChar (n / 16)).toUpper, (Numeral.digitChar (n % 16)).toUpper] := by
    decide +kernel
  unfold escapeByte
  split
  next halpha =>
    have hplain := hplain b.toNat hb
    rw [UInt8.ofNat_toNat] at hplain
    have := Escaped.plain halpha h
    rwa [hplain] at this
  next =>
    rw [hhex b.toNat hb]
    exact .escape (Numeral.digit?_toUpper (by omega)) (Numeral.digit?_toUpper (by omega)) h

theorem escapedText_escape (text : String) : EscapedText text (escape text) := by
  unfold EscapedText escape
  induction Utf8.encode text.toList with
  | nil => exact .nil
  | cons b bs ih =>
    rw [List.flatMap_cons]
    exact escaped_escapeByte b ih

/-! ## Characters of texts with escapes -/

theorem isAlphanum_of_digit? {c : Char} {d : Nat} (h : Numeral.digit? 16 c = some d) :
    c.isAlphanum := by
  have hall : ∀ k < 123, (Numeral.digit? 16 (Char.ofNat k)).isSome →
      (Char.ofNat k).isAlphanum := by
    decide +kernel
  have hchar := hall c.toNat (Numeral.toNat_lt_of_digit? h)
  rw [Char.ofNat_toNat, h] at hchar
  exact hchar rfl

/-- Nothing stands in it but letters, digits and percent signs. -/
theorem Escaped.isAlphanum {bs : Bytes} {cs : List Char} (h : Escaped bs cs) :
    ∀ c ∈ cs, c ≠ '%' → c.isAlphanum := by
  induction h with
  | nil => simp
  | plain hc _ ih => exact List.forall_mem_cons.mpr ⟨fun _ => hc, ih⟩
  | escape hhigh hlow _ ih =>
    refine List.forall_mem_cons.mpr ⟨fun h => absurd rfl h, ?_⟩
    refine List.forall_mem_cons.mpr ⟨fun _ => isAlphanum_of_digit? hhigh, ?_⟩
    exact List.forall_mem_cons.mpr ⟨fun _ => isAlphanum_of_digit? hlow, ih⟩

/-- No mark of a URL stands in it. -/
theorem EscapedText.not_mem {text : String} {cs : List Char} (h : EscapedText text cs) {mark : Char}
    (hpercent : mark ≠ '%') (hmark : mark.isAlphanum = false) : mark ∉ cs := by
  intro hmem
  rw [Escaped.isAlphanum h mark hmem hpercent] at hmark
  cases hmark

/-! ## Escapes undone -/

theorem toNat_lt_of_isAlphanum {c : Char} (h : c.isAlphanum) : c.toNat < 128 := by
  have hle : (c.val ≤ 'Z'.val ∨ c.val ≤ 'z'.val) ∨ c.val ≤ '9'.val := by
    rcases Bool.or_eq_true_iff.mp h with halpha | hdigit
    · refine .inl (Bool.or_eq_true_iff.mp halpha |>.imp (fun hupper => ?_) fun hlower => ?_)
      · exact (of_decide_eq_true hupper).2
      · exact of_decide_eq_true (Bool.and_eq_true_iff.mp hlower).2
    · exact .inr (of_decide_eq_true (Bool.and_eq_true_iff.mp hdigit).2)
  simp only [UInt32.le_iff_toNat_le, Char.toNat_val, Char.reduceToNat] at hle
  omega

theorem encode_cons_of_ascii {c : Char} (h : c.toNat < 128) (cs : List Char) :
    Utf8.encode (c :: cs) = UInt8.ofNat c.toNat :: Utf8.encode cs := by
  have hle : c.toNat ≤ 0x7f := by omega
  rw [Utf8.encode, List.flatMap_cons, Utf8.encodeChar_eq, if_pos hle]
  rfl

theorem escapedByte?_of_ne {sign : UInt8} (h : sign ≠ 0x25) (high low : UInt8) :
    escapedByte? sign high low = none := by
  unfold escapedByte?
  rw [if_pos h]
  rfl

/-- A byte that is no percent sign stays. -/
theorem unescapeBytes_cons {b : UInt8} (h : b ≠ 0x25) (bs : Bytes) :
    unescapeBytes (b :: bs) = b :: unescapeBytes bs := by
  match bs with
  | [] => simp [unescapeBytes]
  | [x] => simp [unescapeBytes]
  | x :: y :: rest => rw [unescapeBytes, escapedByte?_of_ne h]

theorem hexValue?_ofNat {c : Char} (h : c.toNat < 128) :
    hexValue? (UInt8.ofNat c.toNat) = Numeral.digit? 16 c := by
  have hbyte : (UInt8.ofNat c.toNat).toNat = c.toNat :=
    UInt8.toNat_ofNat_of_lt' (Nat.lt_trans h (by decide))
  rw [hexValue?, hbyte, Char.ofNat_toNat]

/-- Every escape is replaced by its byte, and what stands for itself stays. -/
theorem Escaped.unescapeBytes_encode {bs : Bytes} {cs : List Char} (h : Escaped bs cs) :
    unescapeBytes (Utf8.encode cs) = bs := by
  induction h with
  | nil => rfl
  | @plain c bs cs hc _ ih =>
    have hlt := toNat_lt_of_isAlphanum hc
    have hpercent : UInt8.ofNat c.toNat ≠ 0x25 := by
      intro he
      have hnum : c.toNat = 37 := by
        have := congrArg UInt8.toNat he
        rwa [UInt8.toNat_ofNat_of_lt' (Nat.lt_trans hlt (by decide))] at this
      rw [← Char.ofNat_toNat c, hnum] at hc
      exact absurd hc (by decide)
    rw [encode_cons_of_ascii hlt, unescapeBytes_cons hpercent, ih]
  | @escape b high low bs cs hhigh hlow _ ih =>
    have hhighLt := toNat_lt_of_isAlphanum (isAlphanum_of_digit? hhigh)
    have hlowLt := toNat_lt_of_isAlphanum (isAlphanum_of_digit? hlow)
    have hbyte : escapedByte? 0x25 (UInt8.ofNat high.toNat) (UInt8.ofNat low.toNat) = some b := by
      simp only [escapedByte?, hexValue?_ofNat hhighLt, hexValue?_ofNat hlowLt, hhigh, hlow]
      change some (UInt8.ofNat (16 * (b.toNat / 16) + b.toNat % 16)) = some b
      rw [Nat.div_add_mod, UInt8.ofNat_toNat]
    rw [encode_cons_of_ascii (by decide), encode_cons_of_ascii hhighLt,
      encode_cons_of_ascii hlowLt]
    change unescapeBytes (0x25 :: _ :: _ :: _) = _
    rw [unescapeBytes, hbyte, ih]

/-- A text is what its escapes stand for. -/
theorem EscapedText.unescape_eq {text : String} {cs : List Char} (h : EscapedText text cs) :
    unescape cs = text := by
  rw [unescape, Escaped.unescapeBytes_encode h, Utf8.decodeLossy_encode, String.ofList_toList]

end ZigbeeGateway.Mqtt.Url
