-- What the patterns of a float layout stand for, as exact rationals. A magnitude is a
-- significand `s` on one of the scales, and `round` takes a ratio to the scale on which it has a
-- full significand and to the nearest step there.
import ZigbeeGateway.Number.Double
import ZigbeeGateway.Proofs.Number.Ratio
namespace ZigbeeGateway.FloatLayout

variable {f : FloatLayout}

/-! ## Field widths -/

/-- A layout with a fraction, and with exponents between those of zero and of infinity. -/
structure Proper (f : FloatLayout) : Prop where
  fraction : 1 ≤ f.fractionBits
  exponent : 2 ≤ f.exponentBits

theorem fractions_eq (f : FloatLayout) : f.fractions = 2 ^ f.fractionBits := rfl

theorem fractions_cast (f : FloatLayout) : (f.fractions : ℚ) = 2 ^ (f.fractionBits : ℤ) := by
  rw [fractions_eq]
  push_cast
  rw [zpow_natCast]

theorem fractions_pos (f : FloatLayout) : 0 < f.fractions := Nat.pow_pos two_pos

theorem Proper.two_dvd_fractions (hf : f.Proper) : 2 ∣ f.fractions :=
  dvd_pow_self 2 (by have := hf.fraction; omega)

theorem Proper.two_le_fractions (hf : f.Proper) : 2 ≤ f.fractions :=
  Nat.le_of_dvd f.fractions_pos hf.two_dvd_fractions

theorem Proper.four_le_exponents (hf : f.Proper) : 4 ≤ f.exponents :=
  Nat.pow_le_pow_right (n := 2) two_pos hf.exponent

/-- The bias is half way through the exponents. -/
theorem Proper.exponents_eq (hf : f.Proper) : f.exponents = 2 * (f.bias + 1) := by
  have h4 := hf.four_le_exponents
  have h2 : 2 ∣ f.exponents := dvd_pow_self 2 (by have := hf.exponent; omega)
  rw [bias]
  omega

theorem infinity_add_fractions (f : FloatLayout) : f.infinity + f.fractions = f.signBit := by
  have h : 1 ≤ f.exponents := Nat.pow_pos two_pos
  rw [infinity, signBit, ← Nat.succ_mul, Nat.succ_eq_add_one, Nat.sub_add_cancel h]

theorem infinity_lt_signBit (f : FloatLayout) : f.infinity < f.signBit := by
  have := f.infinity_add_fractions
  have := f.fractions_pos
  omega

theorem signBit_pos (f : FloatLayout) : 0 < f.signBit := by
  have := f.infinity_lt_signBit
  omega

/-! ## Signs -/

theorem magnitude_of_lt {m : Nat} (h : m < f.signBit) : f.magnitude m = m := Nat.mod_eq_of_lt h

theorem magnitude_withSign (negative : Bool) {m : Nat} (h : m < f.signBit) :
    f.magnitude (f.withSign negative m) = m := by
  cases negative
  · exact magnitude_of_lt h
  · simp [magnitude, withSign, Nat.mod_eq_of_lt h]

theorem isNegative_withSign (negative : Bool) {m : Nat} (h : m < f.signBit) :
    f.isNegative (f.withSign negative m) = negative := by
  cases negative
  · simp [isNegative, withSign, Nat.div_eq_of_lt h]
  · simp [isNegative, withSign, Nat.add_div_left _ f.signBit_pos, Nat.div_eq_of_lt h]

/-- A pattern is its sign and its magnitude. -/
theorem withSign_magnitude {raw : Nat} (h : raw < 2 * f.signBit) :
    f.withSign (f.isNegative raw) (f.magnitude raw) = raw := by
  by_cases hlt : raw < f.signBit
  · simp [isNegative, withSign, magnitude, Nat.div_eq_of_lt hlt, Nat.mod_eq_of_lt hlt]
  · obtain ⟨m, rfl⟩ := Nat.exists_eq_add_of_le (Nat.le_of_not_lt hlt)
    have hm : m < f.signBit := by omega
    rw [show f.signBit + m = f.withSign true m from rfl, isNegative_withSign true hm,
      magnitude_withSign true hm]

theorem significandScale_withSign (negative : Bool) {m : Nat} (h : m < f.signBit) :
    f.significandScale (f.withSign negative m) = f.significandScale m := by
  have hfraction : f.withSign negative m % f.fractions = m % f.fractions := by
    cases negative
    · rfl
    · simp [withSign, signBit]
  simp only [significandScale, magnitude_withSign negative h, magnitude_of_lt h, hfraction]

/-! ## Significands -/

/-- A magnitude taken apart: `k` scales above the smallest, and the significand there, which is a
full one unless the scale is the smallest. -/
structure Parts (f : FloatLayout) (k s : Nat) : Prop where
  small : s < 2 * f.fractions
  full : k = 0 ∨ f.fractions ≤ s

/-- The magnitude that has these parts. -/
def compose (f : FloatLayout) (k s : Nat) : Nat := k * f.fractions + s

theorem exists_parts (f : FloatLayout) (m : Nat) : ∃ k s, f.Parts k s ∧ m = f.compose k s := by
  have hpos := f.fractions_pos
  have hmod := Nat.mod_lt m hpos
  have hm := Nat.div_add_mod' m f.fractions
  rcases hk : m / f.fractions with _ | k
  · rw [hk, Nat.zero_mul, Nat.zero_add] at hm
    exact ⟨0, m, ⟨by omega, Or.inl rfl⟩, by simp [compose]⟩
  · rw [hk, Nat.succ_mul] at hm
    refine ⟨k, f.fractions + m % f.fractions, ⟨by omega, Or.inr (by omega)⟩, ?_⟩
    rw [compose]
    omega

theorem significandScale_compose {k s : Nat} (h : f.Parts k s) (hlt : f.compose k s < f.signBit) :
    f.significandScale (f.compose k s) = (s, f.minScale + k) := by
  obtain ⟨hs, hk⟩ := h
  have hpos := f.fractions_pos
  simp only [significandScale, magnitude_of_lt hlt]
  by_cases hfull : f.fractions ≤ s
  · obtain ⟨t, rfl⟩ := Nat.exists_eq_add_of_le hfull
    have ht : t < f.fractions := by omega
    have hsplit : f.compose k (f.fractions + t) = t + (k + 1) * f.fractions := by
      rw [compose, Nat.succ_mul]
      omega
    simp [hsplit, Nat.add_mul_div_right _ _ hpos, Nat.div_eq_of_lt ht, Nat.mod_eq_of_lt ht]
  · have hk0 : k = 0 := by omega
    subst hk0
    have ht : s < f.fractions := by omega
    simp [compose, Nat.div_eq_of_lt ht, Nat.mod_eq_of_lt ht]

/-- The rational that a finite pattern stands for, without its sign. -/
def rational (f : FloatLayout) (raw : Nat) : ℚ :=
  (f.significandScale raw).1 * 2 ^ (f.significandScale raw).2

theorem rational_compose {k s : Nat} (h : f.Parts k s) (hlt : f.compose k s < f.signBit) :
    f.rational (f.compose k s) = s * 2 ^ (f.minScale + k) := by
  rw [rational, significandScale_compose h hlt]

end ZigbeeGateway.FloatLayout
