-- Reading a decimal that stands for the same number as the shortest decimal of a double gives that
-- double. The cuts that keep powers of ten small are never reached on the way.
import ZigbeeGateway.Proofs.Number.Shortest
namespace ZigbeeGateway

open FloatLayout Shortest

theorem decimal_bounds {digits : Nat} (h : 0 < digits) (exponent : Int) :
    (10 : ℚ) ^ (((Numeral.digits 10 digits).length + exponent) - 1) ≤ digits * 10 ^ exponent ∧
      digits * (10 : ℚ) ^ exponent < 10 ^ ((Numeral.digits 10 digits).length + exponent) := by
  have hlow := Numeral.pow_length_digits_le (by norm_num : 2 ≤ 10) h
  have hhigh := Numeral.lt_pow_length_digits (by norm_num : 2 ≤ 10) digits
  have hlen := List.length_pos_iff.mpr (Numeral.digits_ne_nil 10 digits)
  generalize (Numeral.digits 10 digits).length = count at hlow hhigh hlen
  have hpos : (0 : ℚ) < 10 ^ exponent := by positivity
  have hlow' : (10 : ℚ) ^ (count - 1) ≤ digits := by exact_mod_cast hlow
  have hhigh' : (digits : ℚ) < 10 ^ count := by exact_mod_cast hhigh
  refine ⟨?_, ?_⟩
  · rw [show ((count : ℤ) + exponent) - 1 = ((count - 1 : Nat) : ℤ) + exponent by omega,
      zpow_add₀ (by norm_num), zpow_natCast]
    gcongr
  · rw [zpow_add₀ (by norm_num), zpow_natCast]
    gcongr

theorem two_pow_le_ten_pow : (2 : ℚ) ^ (1152 : ℤ) ≤ 10 ^ (384 : ℤ) := by
  calc (2 : ℚ) ^ (1152 : ℤ) = (2 ^ 9) ^ 128 := by
        rw [← pow_mul, ← zpow_natCast]
        norm_num
    _ ≤ (10 ^ 3) ^ 128 := pow_le_pow_left₀ (by norm_num) (by norm_num) 128
    _ = 10 ^ (384 : ℤ) := by
        rw [← pow_mul, ← zpow_natCast]
        norm_num

/-- Everything that rounds to a finite magnitude above zero lies well within the range in which
powers of ten are worked out. -/
theorem roundsTo_range {k s : Nat} (hparts : double.Parts k s)
    (hlt : double.compose k s < double.infinity) (hs : 0 < s) {r : ℚ}
    (h : double.RoundsTo k s r) : (10 : ℚ) ^ (-384 : ℤ) ≤ r ∧ r ≤ 10 ^ (384 : ℤ) := by
  have hscale := proper_double.scale_le hparts hlt
  obtain ⟨hlow, hhigh, -⟩ := h.nearest
  have hpos : (0 : ℚ) < 2 ^ (double.minScale + k) := by positivity
  rw [zpow_neg, ← div_eq_mul_inv] at hlow hhigh
  rw [le_div_iff₀ hpos] at hlow
  rw [div_le_iff₀ hpos] at hhigh
  have hs1 : (1 : ℚ) ≤ s := by exact_mod_cast hs
  have hs2 : (s : ℚ) + 1 ≤ 2 ^ (53 : ℤ) := by
    have hnat : s + 1 ≤ 2 ^ 53 := hparts.small
    exact_mod_cast hnat
  refine ⟨?_, ?_⟩
  · calc (10 : ℚ) ^ (-384 : ℤ) ≤ 2 ^ (-1152 : ℤ) := by
          rw [zpow_neg, zpow_neg]
          exact inv_anti₀ (by positivity) two_pow_le_ten_pow
      _ ≤ 2 ^ (-1 + (double.minScale + (k : ℤ))) := by
          rw [minScale_double]
          exact zpow_le_zpow_right₀ one_le_two (by omega)
      _ = 2 ^ (-1 : ℤ) * 2 ^ (double.minScale + (k : ℤ)) := zpow_add₀ two_ne_zero ..
      _ ≤ ((s : ℚ) - 1 / 2) * 2 ^ (double.minScale + (k : ℤ)) := by
          gcongr
          rw [zpow_neg_one]
          linarith
      _ ≤ r := hlow
  · calc r ≤ ((s : ℚ) + 1 / 2) * 2 ^ (double.minScale + (k : ℤ)) := hhigh
      _ ≤ 2 ^ (53 : ℤ) * 2 ^ (double.minScale + (k : ℤ)) := by
          gcongr
          linarith
      _ = 2 ^ (53 + (double.minScale + (k : ℤ))) := (zpow_add₀ two_ne_zero ..).symm
      _ ≤ 2 ^ (1152 : ℤ) := by
          rw [bias_double] at hscale
          exact zpow_le_zpow_right₀ one_le_two (by omega)
      _ ≤ 10 ^ (384 : ℤ) := two_pow_le_ten_pow

theorem Double.ofDecimal_of_roundsTo (negative : Bool) {k s digits : Nat} {exponent : Int}
    (hparts : double.Parts k s) (hlt : double.compose k s < double.infinity) (hs : 0 < s)
    (h : double.RoundsTo k s (digits * (10 : ℚ) ^ exponent)) :
    ofDecimal negative digits exponent = ofMagnitude negative (double.compose k s) := by
  obtain ⟨hlow, hhigh⟩ := roundsTo_range hparts hlt hs h
  have hdigits : 0 < digits := by
    refine Nat.pos_of_ne_zero ?_
    rintro rfl
    rw [Nat.cast_zero, zero_mul] at hlow
    exact absurd hlow (not_le.mpr (by positivity))
  obtain ⟨htop, hnext⟩ := decimal_bounds hdigits exponent
  have h1 := (zpow_lt_zpow_iff_right₀ (by norm_num : (1 : ℚ) < 10)).mp (hlow.trans_lt hnext)
  have h2 := (zpow_le_zpow_iff_right₀ (by norm_num : (1 : ℚ) < 10)).mp (htop.trans hhigh)
  have hratio : ((digits * power 10 exponent : Nat) : ℚ) / power 10 (-exponent) =
      digits * 10 ^ exponent := Shortest.digits_div_power ⟨digits, exponent⟩
  have hnum : 0 < digits * power 10 exponent := Nat.mul_pos hdigits (power_pos (by norm_num) _)
  simp only [ofDecimal]
  rw [if_neg (by omega), if_neg (by omega), ofRatio, round_eq_compose proper_double hnum
    (power_pos (by norm_num) _) hparts hlt (hratio ▸ h)]
  rfl

theorem Double.exists_parts {x : Double} (hx : x.magnitude < double.infinity) :
    ∃ k s, double.Parts k s ∧ x.magnitude = double.compose k s ∧
      x.significandScale = (s, double.minScale + k) := by
  obtain ⟨k, s, hparts, hm⟩ := double.exists_parts x.magnitude
  refine ⟨k, s, hparts, hm, ?_⟩
  rw [significandScale, ← significandScale_magnitude]
  change double.significandScale x.magnitude = _
  rw [hm, significandScale_compose hparts (hm ▸ hx.trans double.infinity_lt_signBit)]

/-- Zero is written with the digit 0, and every other double with a number above zero. -/
theorem Double.shortest_digits {x : Double} (hx : x.magnitude < double.infinity) :
    0 < x.shortest.digits ∨ x.shortest = ⟨0, 0⟩ := by
  obtain ⟨k, s, hparts, hm, hscale⟩ := exists_parts hx
  by_cases hzero : x.magnitude = 0
  · exact Or.inr (if_pos hzero)
  · have hs : 0 < s := by
      have := double.fractions_pos
      rw [hm, compose] at hzero
      rcases hparts.full with rfl | hfull
      · omega
      · omega
    have hround := roundsTo_shortest hparts hscale hs hzero
    refine Or.inl (Nat.pos_of_ne_zero fun hdigits => ?_)
    obtain ⟨hlow, -⟩ := roundsTo_range hparts (hm ▸ hx) hs hround
    rw [Decimal.rational, hdigits, Nat.cast_zero, zero_mul] at hlow
    exact absurd hlow (not_le.mpr (by positivity))

/-- Any decimal that stands for the same number as the shortest decimal of a finite double is read
as that double. -/
theorem Double.ofDecimal_shortest {x : Double} (hx : x.magnitude < double.infinity) {digits : Nat}
    {exponent : Int} (h : digits * (10 : ℚ) ^ exponent = x.shortest.rational) :
    ofDecimal x.isNegative digits exponent = x := by
  obtain ⟨k, s, hparts, hm, hscale⟩ := exists_parts hx
  have hback := ofMagnitude_magnitude x
  rcases Nat.eq_zero_or_pos s with rfl | hs
  · -- zero has the decimal zero
    have hzero : x.magnitude = 0 := by
      have := hparts.full
      have := double.fractions_pos
      have hk : k = 0 := by omega
      rw [hm, hk]
      rfl
    have hdigits : digits = 0 := by
      have hp : (10 : ℚ) ^ exponent ≠ 0 := by positivity
      rw [shortest, if_pos hzero, Decimal.rational, Nat.cast_zero, zero_mul, mul_eq_zero] at h
      exact_mod_cast h.resolve_right hp
    rw [hzero] at hback
    simp only [ofDecimal]
    rw [if_pos (Or.inl hdigits), ofRatio, round_zero]
    exact hback
  · have hzero : x.magnitude ≠ 0 := by
      rw [hm, compose]
      omega
    have hround := roundsTo_shortest hparts hscale hs hzero
    rw [ofDecimal_of_roundsTo x.isNegative hparts (hm ▸ hx) hs (h ▸ hround), ← hm, hback]

end ZigbeeGateway
