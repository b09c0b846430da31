-- Between the layouts and doubles. A pattern of a layout no wider than a double's becomes the
-- double that stands for the very same number, so encoding that double gives the pattern back.
import ZigbeeGateway.Proofs.Number.Rounding
namespace ZigbeeGateway

open FloatLayout

/-! ## Doubles by sign and magnitude -/

theorem FloatLayout.proper_double : double.Proper := ⟨by decide, by decide⟩

namespace Double

theorem pattern_ofPattern {n : Nat} (h : n < 2 * double.signBit) : (ofPattern n).pattern = n :=
  UInt64.toNat_ofNat_of_lt' h

theorem ofPattern_pattern (x : Double) : ofPattern x.pattern = x := by
  simp [ofPattern, pattern]

/-- The double with a sign and a magnitude. -/
def ofMagnitude (negative : Bool) (m : Nat) : Double := ofPattern (double.withSign negative m)

variable {m : Nat}

theorem pattern_ofMagnitude (negative : Bool) (h : m < double.signBit) :
    (ofMagnitude negative m).pattern = double.withSign negative m := by
  refine pattern_ofPattern ?_
  cases negative
  · simp only [withSign, Bool.false_eq_true, if_false]
    omega
  · simp only [withSign, if_true]
    omega

theorem isNegative_ofMagnitude (negative : Bool) (h : m < double.signBit) :
    (ofMagnitude negative m).isNegative = negative := by
  rw [isNegative, pattern_ofMagnitude negative h, isNegative_withSign negative h]

theorem magnitude_ofMagnitude (negative : Bool) (h : m < double.signBit) :
    (ofMagnitude negative m).magnitude = m := by
  rw [magnitude, pattern_ofMagnitude negative h, magnitude_withSign negative h]

theorem significandScale_ofMagnitude (negative : Bool) (h : m < double.signBit) :
    (ofMagnitude negative m).significandScale = double.significandScale m := by
  rw [significandScale, pattern_ofMagnitude negative h, significandScale_withSign negative h]

theorem infinity_eq (negative : Bool) :
    infinity negative = ofMagnitude negative double.infinity := rfl

/-- Every double is made of its sign and its magnitude. -/
theorem ofMagnitude_magnitude (x : Double) : ofMagnitude x.isNegative x.magnitude = x := by
  have hlt : x.pattern < 2 * double.signBit := x.bits.toNat_lt
  rw [ofMagnitude, isNegative, magnitude, withSign_magnitude hlt, ofPattern_pattern]

end Double

namespace FloatLayout

variable {f : FloatLayout}

/-! ## Layouts no wider than doubles -/

/-- A layout whose fields are no wider than those of doubles. -/
structure Narrow (f : FloatLayout) : Prop extends f.Proper where
  fraction_le : f.fractionBits ≤ 52
  exponent_le : f.exponentBits ≤ 11

theorem narrow_semi : semi.Narrow := ⟨⟨by decide, by decide⟩, by decide, by decide⟩

theorem narrow_single : single.Narrow := ⟨⟨by decide, by decide⟩, by decide, by decide⟩

theorem narrow_double : double.Narrow := ⟨proper_double, by decide, by decide⟩

theorem Narrow.fractions_le (hf : f.Narrow) : f.fractions ≤ double.fractions :=
  Nat.pow_le_pow_right two_pos hf.fraction_le

theorem Narrow.bias_le (hf : f.Narrow) : f.bias ≤ double.bias := by
  have h : f.exponents ≤ double.exponents := Nat.pow_le_pow_right two_pos hf.exponent_le
  rw [bias, bias]
  omega

theorem minScale_double : double.minScale = -1074 := rfl

theorem bias_double : double.bias = 1023 := rfl

theorem Narrow.minScale_ge (hf : f.Narrow) : double.minScale ≤ f.minScale := by
  have hbias := hf.bias_le
  have hfraction := hf.fraction_le
  rw [bias_double] at hbias
  rw [minScale_double, minScale]
  omega

/-! ## Finite magnitudes -/

/-- A finite magnitude lies on one of the scales up to that of the largest finite number. -/
theorem Proper.scale_le (hf : f.Proper) {k s : Nat} (hparts : f.Parts k s)
    (hlt : f.compose k s < f.infinity) : f.minScale + k ≤ (f.bias : ℤ) - f.fractionBits := by
  have hexp := hf.exponents_eq
  have h4 := hf.four_le_exponents
  have hk : k + 3 ≤ f.exponents := by
    rcases hparts.full with rfl | hfull
    · omega
    · have hmul : (k + 1) * f.fractions < (f.exponents - 1) * f.fractions := by
        refine lt_of_le_of_lt ?_ hlt
        simp only [compose, Nat.succ_mul]
        omega
      have := Nat.lt_of_mul_lt_mul_right hmul
      omega
  rw [minScale]
  omega

theorem Proper.rational_lt (hf : f.Proper) {m : Nat} (hm : m < f.infinity) :
    f.rational m < 2 ^ ((f.bias : ℤ) + 1) := by
  obtain ⟨k, s, hparts, rfl⟩ := f.exists_parts m
  rw [rational_compose hparts (hm.trans f.infinity_lt_signBit)]
  have hs : (s : ℚ) < 2 * f.fractions := by exact_mod_cast hparts.small
  calc (s : ℚ) * 2 ^ (f.minScale + k) < 2 * f.fractions * 2 ^ (f.minScale + k) := by gcongr
    _ = 2 ^ (1 + (f.fractionBits + (f.minScale + k))) := by
      rw [zpow_one_add₀ two_ne_zero, zpow_add₀ two_ne_zero f.fractionBits, fractions_cast,
        mul_assoc]
    _ ≤ 2 ^ ((f.bias : ℤ) + 1) := by
      refine zpow_le_zpow_right₀ one_le_two ?_
      have := hf.scale_le hparts hm
      omega

/-! ## Decoding -/

theorem significandScale_magnitude (raw : Nat) :
    f.significandScale (f.magnitude raw) = f.significandScale raw := by
  have hmagnitude : f.magnitude (f.magnitude raw) = f.magnitude raw := Nat.mod_mod ..
  have hfraction : f.magnitude raw % f.fractions = raw % f.fractions :=
    Nat.mod_mod_of_dvd raw (Dvd.intro_left _ rfl)
  rw [significandScale, significandScale, hmagnitude, hfraction]

theorem rational_magnitude (raw : Nat) : f.rational (f.magnitude raw) = f.rational raw := by
  simp only [rational, significandScale_magnitude]

/-- A finite pattern becomes the double of its sign that stands for the same number. -/
theorem Narrow.decode_finite (hf : f.Narrow) {raw : Nat} (h : f.magnitude raw < f.infinity) :
    ∃ m < double.infinity, double.rational m = f.rational raw ∧
      f.decode raw = Double.ofMagnitude (f.isNegative raw) m := by
  obtain ⟨k, s, hparts, hm⟩ := f.exists_parts (f.magnitude raw)
  have hsign := h.trans f.infinity_lt_signBit
  have hscale : f.significandScale raw = (s, f.minScale + k) := by
    rw [← significandScale_magnitude, hm, significandScale_compose hparts (hm ▸ hsign)]
  have hrational : f.rational raw = s * 2 ^ (f.minScale + k) := by
    rw [rational, hscale]
  have hlow : double.minScale ≤ f.minScale + k := by
    have := hf.minScale_ge
    omega
  have hhigh := hf.scale_le hparts (hm ▸ h)
  have hsmall : s < 2 * double.fractions := by
    have := hparts.small
    have := hf.fractions_le
    omega
  have hlarge : (s : ℚ) * 2 ^ (f.minScale + k) < 2 ^ ((double.bias : ℤ) + 1) := by
    rw [← hrational, ← rational_magnitude]
    refine (hf.rational_lt h).trans_le (zpow_le_zpow_right₀ one_le_two ?_)
    have := hf.bias_le
    omega
  obtain ⟨m, hmlt, hmr⟩ := exists_rational_eq proper_double hsmall hlow hlarge
  have hscaled : scaled s (f.minScale + k) = m := by
    have hbias := hf.bias_le
    rw [scaled, if_neg (by omega), if_neg (by rw [maxScale]; omega)]
    exact roundScaled_eq_of_rational proper_double hmlt hmr.symm
  refine ⟨m, hmlt, hmr.trans hrational.symm, ?_⟩
  rw [decode, if_neg (by omega), if_neg (by omega), hscale]
  simp only [hscaled, Double.ofMagnitude]

theorem decode_infinite {raw : Nat} (h : f.magnitude raw = f.infinity) :
    f.decode raw = Double.infinity (f.isNegative raw) := by
  rw [decode, if_neg (by omega), if_pos h]

theorem decode_nan {raw : Nat} (h : f.infinity < f.magnitude raw) : f.decode raw = Double.nan :=
  if_pos h

theorem isNaN_nan : Double.nan.isNaN = true := by decide

theorem isNaN_ofMagnitude (negative : Bool) {m : Nat} (h : m ≤ double.infinity) :
    (Double.ofMagnitude negative m).isNaN = false := by
  rw [Double.isNaN, Double.magnitude_ofMagnitude negative (h.trans_lt double.infinity_lt_signBit)]
  simpa using h

/-- Exactly the NaN patterns become NaN. -/
theorem Narrow.isNaN_decode (hf : f.Narrow) (raw : Nat) :
    (f.decode raw).isNaN = true ↔ f.infinity < f.magnitude raw := by
  rcases lt_trichotomy (f.magnitude raw) f.infinity with h | h | h
  · obtain ⟨m, hm, -, hd⟩ := hf.decode_finite h
    simp [hd, isNaN_ofMagnitude _ hm.le, h.le]
  · simp [decode_infinite h, Double.infinity_eq, isNaN_ofMagnitude _ le_rfl, h]
  · simp [decode_nan h, isNaN_nan, h]

/-! ## Encoding -/

theorem encode_nan {x : Double} (h : x.isNaN = true) : f.encode x = f.quietNaN := if_pos h

theorem encode_infinity (negative : Bool) :
    f.encode (Double.infinity negative) = f.withSign negative f.infinity := by
  cases negative <;> rfl

/-- The double of a finite magnitude is rounded to the layout. -/
theorem encode_ofMagnitude (negative : Bool) {m : Nat} (h : m < double.infinity) :
    f.encode (Double.ofMagnitude negative m) = f.withSign negative
      (f.roundScaled (double.significandScale m).1 (double.significandScale m).2) := by
  have hsign := h.trans double.infinity_lt_signBit
  have hnan := isNaN_ofMagnitude negative h.le
  have hinf : (Double.ofMagnitude negative m).isInfinite = false := by
    rw [Double.isInfinite, Double.magnitude_ofMagnitude negative hsign]
    simpa using h.ne
  simp only [encode, hnan, hinf, Bool.false_eq_true, if_false,
    Double.isNegative_ofMagnitude negative hsign, Double.significandScale_ofMagnitude negative hsign]

/-- Encoding undoes decoding, except that NaN patterns are not told apart. -/
theorem Narrow.encode_decode (hf : f.Narrow) {raw : Nat} (hraw : raw < 2 * f.signBit)
    (h : f.magnitude raw ≤ f.infinity) : f.encode (f.decode raw) = raw := by
  rcases lt_or_eq_of_le h with h | h
  · obtain ⟨m, hm, hmr, hd⟩ := hf.decode_finite h
    have hround := roundScaled_eq_of_rational hf.toProper h
      (hmr.trans (rational_magnitude raw).symm)
    rw [hd, encode_ofMagnitude _ hm, hround, withSign_magnitude hraw]
  · rw [decode_infinite h, encode_infinity, ← h, withSign_magnitude hraw]

theorem withSign_lt (negative : Bool) {m : Nat} (h : m < f.signBit) :
    f.withSign negative m < 2 * f.signBit := by
  cases negative
  · simp only [withSign, Bool.false_eq_true, if_false]
    omega
  · simp only [withSign, if_true]
    omega

theorem round_le (num den : Nat) : f.round num den ≤ f.infinity := by
  rw [round]
  split
  · exact Nat.zero_le _
  · exact Nat.min_le_right ..

theorem quietNaN_lt (hf : f.Proper) : f.quietNaN < f.signBit := by
  have := f.infinity_add_fractions
  have := hf.two_le_fractions
  rw [quietNaN]
  omega

theorem infinity_lt_quietNaN (hf : f.Proper) : f.infinity < f.quietNaN := by
  have := hf.two_le_fractions
  rw [quietNaN]
  omega

/-- What encoding gives fits into the layout, and only a NaN becomes one, the quiet one. -/
theorem encode_cases (f : FloatLayout) (x : Double) :
    (x.isNaN = true ∧ f.encode x = f.quietNaN) ∨
      ∃ negative m, m ≤ f.infinity ∧ f.encode x = f.withSign negative m := by
  rw [encode]
  split
  · rename_i hnan
    exact Or.inl ⟨hnan, rfl⟩
  · split
    · exact Or.inr ⟨_, _, le_rfl, rfl⟩
    · exact Or.inr ⟨_, _, round_le .., rfl⟩

end FloatLayout

end ZigbeeGateway
