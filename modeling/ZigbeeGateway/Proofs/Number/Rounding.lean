-- Rounding to a float layout. A ratio rounds to a magnitude if it lies between the half way
-- points beside it; on the way down from a power of two the half way point is nearer. So what a
-- layout holds exactly rounds to itself.
import Mathlib.Tactic.Ring
import ZigbeeGateway.Proofs.Number.Pattern
namespace ZigbeeGateway.FloatLayout

variable {f : FloatLayout}

theorem round_zero (den : Nat) : f.round 0 den = 0 := if_pos rfl

/-- On a scale on which a ratio has a full significand, or on the smallest scale, rounding takes
the nearest step of that scale. -/
theorem round_eq_min {num den k n : Nat} (hnum : 0 < num) (hden : 0 < den)
    (hlow : k = 0 ∨ (f.fractions : ℚ) ≤ (num : ℚ) / den * 2 ^ (-(f.minScale + k)))
    (hhigh : (num : ℚ) / den * 2 ^ (-(f.minScale + k)) < 2 * f.fractions)
    (hn : NearestEven ((num : ℚ) / den * 2 ^ (-(f.minScale + k))) n) :
    f.round num den = min (f.compose k n) f.infinity := by
  generalize hs : f.minScale + (k : ℤ) = scale at hlow hhigh hn
  generalize hr : (num : ℚ) / den = r at hlow hhigh hn
  have hback : r = r * 2 ^ (-scale) * 2 ^ scale := by
    rw [mul_assoc, ← zpow_add₀ two_ne_zero]
    simp
  have hpos : (0 : ℚ) < 2 ^ scale := by positivity
  have hupper : r < 2 ^ (f.fractionBits + scale + 1) := by
    calc r = r * 2 ^ (-scale) * 2 ^ scale := hback
      _ < 2 * f.fractions * 2 ^ scale := by gcongr
      _ = 2 ^ (f.fractionBits + scale + 1) := by
        rw [fractions_cast, zpow_add_one₀ two_ne_zero, zpow_add₀ two_ne_zero]
        ring
  -- the scale that `round` finds is this one
  have hscale : max (ratioLog2 num den - f.fractionBits) f.minScale = scale := by
    rcases hlow with hk | hlow
    · have h := (ratioLog2_bounds hnum hden).1.trans_lt (hr ▸ hupper)
      have := (zpow_lt_zpow_iff_right₀ (one_lt_two (α := ℚ))).mp h
      omega
    · have hlower : (2 : ℚ) ^ (f.fractionBits + scale) ≤ r := by
        calc (2 : ℚ) ^ (f.fractionBits + scale) = f.fractions * 2 ^ scale := by
              rw [fractions_cast, zpow_add₀ two_ne_zero]
          _ ≤ r * 2 ^ (-scale) * 2 ^ scale := by gcongr
          _ = r := hback.symm
      have := ratioLog2_eq hnum hden (hr ▸ hlower) (hr ▸ hupper)
      omega
  have hsteps : divNearestEven (num * power 2 (-scale)) (den * power 2 scale) = n := by
    have hden' : 0 < den * power 2 scale := Nat.mul_pos hden (power_pos two_pos _)
    have hspec := nearestEven_divNearestEven (num * power 2 (-scale)) hden'
    have hratio := ratio_mul_power two_pos num den (-scale)
    rw [neg_neg, hr] at hratio
    rw [hratio] at hspec
    exact hspec.unique (mod_cast hn)
  have hk : (scale - f.minScale).toNat = k := by omega
  simp only [round, if_neg hnum.ne', hscale, hsteps, hk, compose]

/-- The ratios that round to the magnitude with some parts. -/
structure RoundsTo (f : FloatLayout) (k s : Nat) (r : ℚ) : Prop where
  nearest : NearestEven (r * 2 ^ (-(f.minScale + k))) s
  /-- Below a power of two the steps are half as wide. -/
  below : s = f.fractions → k ≠ 0 → (s : ℚ) - 1 / 4 ≤ r * 2 ^ (-(f.minScale + k))

theorem round_eq_compose (hf : f.Proper) {num den k s : Nat} (hnum : 0 < num) (hden : 0 < den)
    (hparts : f.Parts k s) (hlt : f.compose k s < f.infinity)
    (h : f.RoundsTo k s ((num : ℚ) / den)) : f.round num den = f.compose k s := by
  obtain ⟨hs, hk⟩ := hparts
  obtain ⟨hnear, hbelow⟩ := h
  have hhigh := hnear.high
  have hs' : (s : ℚ) + 1 ≤ 2 * f.fractions := by exact_mod_cast hs
  by_cases hfull : k = 0 ∨ (f.fractions : ℚ) ≤ (num : ℚ) / den * 2 ^ (-(f.minScale + k))
  · rw [round_eq_min hnum hden hfull (by linarith) hnear, min_eq_left hlt.le]
  · -- just below a power of two the scale is one smaller, and the step is the last one there
    rw [not_or, not_le] at hfull
    obtain ⟨hk0, hless⟩ := hfull
    obtain ⟨j, rfl⟩ := Nat.exists_eq_succ_of_ne_zero hk0
    have hseq : s = f.fractions := by
      have hlow := hnear.low
      have hlt : (s : ℚ) < f.fractions + 1 := by linarith
      have hlt : s < f.fractions + 1 := by exact_mod_cast hlt
      omega
    have hquarter := hbelow hseq hk0
    have hdouble : (num : ℚ) / den * 2 ^ (-(f.minScale + j)) =
        2 * ((num : ℚ) / den * 2 ^ (-(f.minScale + j.succ))) := by
      rw [mul_left_comm, ← zpow_one_add₀ two_ne_zero]
      congr 2
      omega
    have hfr : (2 : ℚ) ≤ f.fractions := by exact_mod_cast hf.two_le_fractions
    have hcompose : f.compose j (2 * f.fractions) = f.compose j.succ s := by
      simp only [compose, hseq, Nat.succ_mul]
      omega
    rw [hseq] at hquarter
    generalize (num : ℚ) / den * 2 ^ (-(f.minScale + j.succ)) = x at hless hquarter hdouble
    have hnear' : NearestEven (2 * x) (2 * f.fractions) := by
      refine ⟨?_, ?_, fun _ => Nat.mul_mod_right ..⟩
      · push_cast
        linarith
      · push_cast
        linarith
    rw [← hdouble] at hnear'
    rw [round_eq_min hnum hden (Or.inr (by linarith)) (by linarith) hnear', hcompose,
      min_eq_left hlt.le]

/-! ## What is held exactly -/

theorem roundsTo_self (k s : Nat) : f.RoundsTo k s (s * 2 ^ (f.minScale + k)) := by
  have hback : (s : ℚ) * 2 ^ (f.minScale + k) * 2 ^ (-(f.minScale + k)) = s := by
    rw [mul_assoc, ← zpow_add₀ two_ne_zero]
    simp
  refine ⟨?_, fun _ _ => ?_⟩
  · rw [hback]
    exact nearestEven_natCast s
  · rw [hback]
    linarith

/-- A ratio that is what a finite magnitude stands for rounds to that magnitude. -/
theorem round_eq_of_rational (hf : f.Proper) {num den m : Nat} (hden : 0 < den)
    (hm : m < f.infinity) (h : (num : ℚ) / den = f.rational m) : f.round num den = m := by
  obtain ⟨k, s, hparts, rfl⟩ := f.exists_parts m
  have hsign := hm.trans f.infinity_lt_signBit
  rw [rational_compose hparts hsign] at h
  rcases Nat.eq_zero_or_pos num with rfl | hnum
  · have hs : s = 0 := by
      have hd : (2 : ℚ) ^ (f.minScale + k) ≠ 0 := by positivity
      rw [Nat.cast_zero, zero_div, eq_comm, mul_eq_zero] at h
      exact_mod_cast h.resolve_right hd
    have hk : k = 0 := by
      have := hparts.full
      have := f.fractions_pos
      omega
    rw [round_zero, hs, hk]
    simp [compose]
  · exact round_eq_compose hf hnum hden hparts hm (h ▸ roundsTo_self k s)

theorem roundScaled_eq_of_rational (hf : f.Proper) {s m : Nat} {scale : Int} (hm : m < f.infinity)
    (h : (s : ℚ) * 2 ^ scale = f.rational m) : f.roundScaled s scale = m := by
  refine round_eq_of_rational hf (power_pos two_pos _) hm ?_
  have hratio := ratio_mul_power two_pos s 1 scale
  rw [Nat.one_mul, Nat.cast_one, div_one] at hratio
  rw [hratio, ← h]
  norm_cast

/-- Every number with few enough places that is not too large is held exactly. -/
theorem exists_rational_eq (hf : f.Proper) {s : Nat} {scale : Int} (hs : s < 2 * f.fractions)
    (hlow : f.minScale ≤ scale) (hhigh : (s : ℚ) * 2 ^ scale < 2 ^ ((f.bias : ℤ) + 1)) :
    ∃ m < f.infinity, f.rational m = s * 2 ^ scale := by
  obtain ⟨k, rfl⟩ := Int.le.dest hlow
  induction k generalizing s with
  | zero =>
    have hparts : f.Parts 0 s := ⟨hs, Or.inl rfl⟩
    have hlt : f.compose 0 s < f.infinity := by
      have h4 := hf.four_le_exponents
      have : 2 * f.fractions ≤ f.infinity := Nat.mul_le_mul_right _ (by omega)
      rw [compose]
      omega
    exact ⟨_, hlt, rational_compose hparts (hlt.trans f.infinity_lt_signBit)⟩
  | succ k ih =>
    by_cases hfull : f.fractions ≤ s
    · have hparts : f.Parts (k + 1) s := ⟨hs, Or.inr hfull⟩
      have hlt : f.compose (k + 1) s < f.infinity := by
        have hpow : (2 : ℚ) ^ (f.fractionBits + (f.minScale + (k + 1 : Nat))) <
            2 ^ ((f.bias : ℤ) + 1) := by
          rw [zpow_add₀ two_ne_zero, ← fractions_cast]
          refine lt_of_le_of_lt ?_ hhigh
          gcongr
        have hk := (zpow_lt_zpow_iff_right₀ (one_lt_two (α := ℚ))).mp hpow
        have hscales : k + 3 ≤ f.exponents - 1 := by
          have := hf.exponents_eq
          rw [minScale] at hk
          omega
        calc f.compose (k + 1) s < (k + 3) * f.fractions := by
              simp only [compose, Nat.add_mul]
              omega
          _ ≤ f.infinity := Nat.mul_le_mul_right _ hscales
      exact ⟨_, hlt, rational_compose hparts (hlt.trans f.infinity_lt_signBit)⟩
    · -- one more place fits on the next smaller scale
      have hshift : ((2 * s : Nat) : ℚ) * 2 ^ (f.minScale + k) = s * 2 ^ (f.minScale + (k + 1 : Nat)) := by
        rw [show f.minScale + ((k + 1 : Nat) : ℤ) = f.minScale + k + 1 by push_cast; ring,
          zpow_add_one₀ two_ne_zero]
        push_cast
        ring
      obtain ⟨m, hm, hmr⟩ := ih (s := 2 * s) (by omega) (by omega) (hshift ▸ hhigh)
      exact ⟨m, hm, hmr.trans hshift⟩

end ZigbeeGateway.FloatLayout
