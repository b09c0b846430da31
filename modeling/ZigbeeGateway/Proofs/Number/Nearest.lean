-- Rounding is correct: among the finite magnitudes of a layout none is nearer to the ratio than the
-- one that it rounds to, of two that are equally near the even one is taken, and the infinity is
-- taken from half a unit past the largest finite magnitude on.
import ZigbeeGateway.Proofs.Number.Conversion
namespace ZigbeeGateway

/-! ## Whole numbers near a ratio -/

theorem NearestEven.abs_sub_le {r : ℚ} {n : Nat} (h : NearestEven r n) : |(n : ℚ) - r| ≤ 1 / 2 := by
  have hlow := h.low
  have hhigh := h.high
  rw [abs_le]
  constructor <;> linarith

theorem NearestEven.even_of_abs {r : ℚ} {n : Nat} (h : NearestEven r n)
    (hhalf : |(n : ℚ) - r| = 1 / 2) : n % 2 = 0 := by
  apply h.even
  rcases abs_eq (by norm_num : (0 : ℚ) ≤ 1 / 2) |>.mp hhalf with hdiff | hdiff
  · left
    linarith
  · right
    linarith

/-- Other whole numbers are at least half a step away. -/
theorem NearestEven.half_le_abs {r : ℚ} {n n' : Nat} (h : NearestEven r n) (hne : n' ≠ n) :
    1 / 2 ≤ |(n' : ℚ) - r| := by
  have hlow := h.low
  have hhigh := h.high
  rcases Nat.lt_or_gt_of_ne hne with hlt | hgt
  · have hle : (n' : ℚ) + 1 ≤ n := by exact_mod_cast hlt
    rw [le_abs]
    right
    linarith
  · have hle : (n : ℚ) + 1 ≤ n' := by exact_mod_cast hgt
    rw [le_abs]
    left
    linarith

theorem NearestEven.le_of_lt {r : ℚ} {n bound : Nat} (h : NearestEven r n) (hr : r < bound) :
    n ≤ bound := by
  have hlow := h.low
  have hlt : (n : ℚ) < bound + 1 := by linarith
  have hlt : n < bound + 1 := by exact_mod_cast hlt
  omega

theorem NearestEven.le_of_le {r : ℚ} {n bound : Nat} (h : NearestEven r n) (hr : bound ≤ r) :
    bound ≤ n := by
  have hhigh := h.high
  have hlt : (bound : ℚ) < n + 1 := by linarith
  have hlt : bound < n + 1 := by exact_mod_cast hlt
  omega

namespace FloatLayout

variable {f : FloatLayout}

/-! ## The value of a pattern -/

/-- What a finite magnitude stands for: without an exponent a fraction of the smallest power of two,
with one a power of two and a fraction of it. -/
def valueOf (f : FloatLayout) (m : Nat) : ℚ :=
  let exponent := m / f.fractions
  let fraction : ℚ := (m % f.fractions : Nat) / f.fractions
  if exponent = 0 then fraction * 2 ^ (1 - f.bias : ℤ)
  else (1 + fraction) * 2 ^ (exponent - f.bias : ℤ)

/-- How far it is from a finite magnitude to the next one. -/
def lastUnit (f : FloatLayout) (m : Nat) : ℚ :=
  2 ^ ((max (m / f.fractions) 1 : Nat) - f.bias - f.fractionBits : ℤ)

theorem valueOf_eq_rational {m : Nat} (h : m < f.signBit) : f.valueOf m = f.rational m := by
  have hpos : (f.fractions : ℚ) ≠ 0 := by exact_mod_cast f.fractions_pos.ne'
  unfold valueOf rational significandScale
  rw [magnitude_of_lt h]
  simp only
  split
  · rw [minScale, zpow_sub₀ two_ne_zero _ (f.fractionBits : ℤ), ← fractions_cast]
    field_simp
  · rename_i hexponent
    have hscale : f.minScale + ((m / f.fractions : Nat) - 1 : ℤ) =
        (m / f.fractions : Nat) - f.bias - f.fractionBits := by
      rw [minScale]
      ring
    rw [hscale, zpow_sub₀ two_ne_zero _ (f.fractionBits : ℤ), ← fractions_cast]
    push_cast
    field_simp

/-- With a full significand, or with any on the smallest scale, a magnitude may also be written with
a significand that carries. -/
theorem valueOf_compose {k n : Nat} (hlow : k = 0 ∨ f.fractions ≤ n) (hhigh : n ≤ 2 * f.fractions)
    (hlt : f.compose k n < f.signBit) : f.valueOf (f.compose k n) = n * 2 ^ (f.minScale + k) := by
  rw [valueOf_eq_rational hlt]
  rcases Nat.lt_or_eq_of_le hhigh with hsmall | hcarry
  · exact rational_compose ⟨hsmall, hlow⟩ hlt
  · have hpos := f.fractions_pos
    have hcompose : f.compose k n = f.compose (k + 1) f.fractions := by
      rw [compose, compose, hcarry, Nat.succ_mul k]
      omega
    rw [hcompose] at hlt ⊢
    rw [rational_compose ⟨by omega, Or.inr le_rfl⟩ hlt, hcarry,
      show f.minScale + ((k + 1 : Nat) : ℤ) = f.minScale + k + 1 by push_cast; ring,
      zpow_add_one₀ two_ne_zero]
    push_cast
    ring

/-! ## Rounding takes the nearest -/

/-- A ratio between two neighbours on a scale, and the step there that it rounds to. -/
structure Scaled (f : FloatLayout) (r : ℚ) (k n : Nat) : Prop where
  low : k = 0 ∨ (f.fractions : ℚ) ≤ r * 2 ^ (-(f.minScale + k))
  high : r * 2 ^ (-(f.minScale + k)) < 2 * f.fractions
  nearest : NearestEven (r * 2 ^ (-(f.minScale + k))) n

namespace Scaled

variable {r : ℚ} {k n : Nat}

theorem full (h : f.Scaled r k n) : k = 0 ∨ f.fractions ≤ n :=
  h.low.imp_right h.nearest.le_of_le

theorem le (h : f.Scaled r k n) : n ≤ 2 * f.fractions :=
  h.nearest.le_of_lt (by exact_mod_cast h.high)

theorem eq_mul (r : ℚ) (scale : ℤ) : r = r * 2 ^ (-scale) * 2 ^ scale := by
  rw [mul_assoc, ← zpow_add₀ two_ne_zero]
  simp

/-- A step on a scale is two on the one below. -/
theorem two_mul_scale_le (f : FloatLayout) {j k : Nat} (h : j < k) :
    2 * (2 : ℚ) ^ (f.minScale + j) ≤ 2 ^ (f.minScale + k) := by
  rw [← zpow_one_add₀ two_ne_zero]
  exact zpow_le_zpow_right₀ one_le_two (by omega)

/-- A distance, measured in steps. -/
theorem abs_sub (r : ℚ) (n : Nat) (scale : ℤ) :
    |n * 2 ^ scale - r| = |n - r * 2 ^ (-scale)| * 2 ^ scale := by
  have hpos : (0 : ℚ) < 2 ^ scale := by positivity
  nth_rewrite 1 [eq_mul r scale]
  rw [← sub_mul, abs_mul, abs_of_pos hpos]

/-- A significand on a larger scale that is the same number has the same pattern. -/
theorem compose_eq (hn : n ≤ 2 * f.fractions) {d t : Nat} (hparts : f.Parts (k + d) t)
    (heq : t * 2 ^ d = n) : f.compose (k + d) t = f.compose k n := by
  have hpos := f.fractions_pos
  have hfull := hparts.full
  match d with
  | 0 => rw [← heq, pow_zero, Nat.mul_one, Nat.add_zero]
  | 1 =>
    have ht : t = f.fractions := by omega
    rw [compose, compose, ← heq, ht, Nat.succ_mul k]
    omega
  | d + 2 =>
    have hfour : 4 ≤ 2 ^ (d + 2) := Nat.pow_le_pow_right (n := 2) two_pos (by omega : 2 ≤ d + 2)
    have hlarge : f.fractions * 4 ≤ t * 2 ^ (d + 2) := Nat.mul_le_mul (by omega) hfour
    omega

/-- On a smaller scale there are only numbers below those with a full significand. -/
theorem half_le_of_smaller (h : f.Scaled r k n) {j t : Nat} (hj : j < k)
    (ht : t < 2 * f.fractions) : 1 / 2 * 2 ^ (f.minScale + k) ≤ |t * 2 ^ (f.minScale + j) - r| := by
  have hfull : (f.fractions : ℚ) ≤ r * 2 ^ (-(f.minScale + k)) := h.low.resolve_left (by omega)
  have hsmall : (t : ℚ) + 1 ≤ 2 * f.fractions := by exact_mod_cast ht
  have hscale := two_mul_scale_le f hj
  have hbelow : (t : ℚ) * 2 ^ (f.minScale + j) ≤ (f.fractions - 1 / 2) * 2 ^ (f.minScale + k) := by
    calc (t : ℚ) * 2 ^ (f.minScale + j) ≤ (2 * f.fractions - 1) * 2 ^ (f.minScale + j) := by
          gcongr
          linarith
      _ = (f.fractions - 1 / 2) * (2 * 2 ^ (f.minScale + j)) := by ring
      _ ≤ (f.fractions - 1 / 2) * 2 ^ (f.minScale + k) := by
          gcongr
          linarith
  have habove : f.fractions * 2 ^ (f.minScale + k) ≤ r := by
    rw [eq_mul r (f.minScale + k)]
    gcongr
  rw [le_abs]
  right
  linarith

/-- Every other finite magnitude is at least half a step away from the ratio. -/
theorem half_le (h : f.Scaled r k n) {m : Nat} (hm : m < f.signBit) (hne : m ≠ f.compose k n) :
    1 / 2 * 2 ^ (f.minScale + k) ≤ |f.valueOf m - r| := by
  obtain ⟨j, t, hparts, rfl⟩ := f.exists_parts m
  rw [valueOf_compose hparts.full hparts.small.le hm]
  rcases Nat.lt_or_ge j k with hlt | hge
  · exact h.half_le_of_smaller hlt hparts.small
  · -- what is a number of steps on a larger scale is one here
    obtain ⟨d, rfl⟩ := Nat.exists_eq_add_of_le hge
    have hsteps : (t : ℚ) * 2 ^ (f.minScale + (k + d : Nat)) =
        (t * 2 ^ d : Nat) * 2 ^ (f.minScale + k) := by
      push_cast
      rw [← add_assoc, zpow_add₀ two_ne_zero, zpow_natCast]
      ring
    have hother : t * 2 ^ d ≠ n := fun heq => hne (compose_eq h.le hparts heq)
    have haway := h.nearest.half_le_abs hother
    rw [hsteps, abs_sub]
    gcongr

end Scaled

/-- The smallest scale serves, or the one on which a significand is full. -/
theorem scaled_divNearestEven {num den k : Nat} {l scale : ℤ} (hden : 0 < den)
    (hlow : (2 : ℚ) ^ l ≤ (num : ℚ) / den) (hhigh : (num : ℚ) / den < 2 ^ (l + 1))
    (hk : f.minScale + k = scale) (hscale : scale = max (l - f.fractionBits) f.minScale) :
    f.Scaled ((num : ℚ) / den) k
      (divNearestEven (num * power 2 (-scale)) (den * power 2 scale)) := by
  constructor
  case low =>
    by_cases hk0 : k = 0
    · exact Or.inl hk0
    · have hfull : (f.fractionBits : ℤ) = l + -scale := by omega
      right
      rw [hk, fractions_cast, hfull, zpow_add₀ two_ne_zero]
      gcongr
  case high =>
    have hle : l + 1 + -scale ≤ 1 + f.fractionBits := by omega
    rw [hk]
    calc (num : ℚ) / den * 2 ^ (-scale) < 2 ^ (l + 1) * 2 ^ (-scale) := by gcongr
      _ = 2 ^ (l + 1 + -scale) := by rw [zpow_add₀ two_ne_zero (l + 1)]
      _ ≤ 2 ^ (1 + f.fractionBits : ℤ) := zpow_le_zpow_right₀ one_le_two hle
      _ = 2 * f.fractions := by rw [zpow_one_add₀ two_ne_zero, fractions_cast]
  case nearest =>
    have hden' : 0 < den * power 2 scale := Nat.mul_pos hden (power_pos two_pos _)
    have hspec := nearestEven_divNearestEven (num * power 2 (-scale)) hden'
    have hratio := ratio_mul_power two_pos num den (-scale)
    rw [neg_neg] at hratio
    rw [hratio] at hspec
    rw [hk]
    exact_mod_cast hspec

/-- Rounding finds a scale and the nearest step on it. -/
theorem exists_scaled (f : FloatLayout) (num : Nat) {den : Nat} (hden : 0 < den) :
    ∃ k n, f.Scaled ((num : ℚ) / den) k n ∧ f.round num den = min (f.compose k n) f.infinity := by
  have hfractions : (0 : ℚ) < f.fractions := by exact_mod_cast f.fractions_pos
  rcases Nat.eq_zero_or_pos num with rfl | hnum
  · refine ⟨0, 0, ⟨Or.inl rfl, ?_, ?_⟩, ?_⟩
    · simpa using hfractions
    · simpa using nearestEven_natCast 0
    · simp [round_zero, compose]
  · obtain ⟨hlow, hhigh⟩ := ratioLog2_bounds hnum hden
    generalize ratioLog2 num den = l at hlow hhigh
    obtain ⟨k, hk⟩ := Int.le.dest (le_max_right (l - f.fractionBits) f.minScale)
    have hscaled := scaled_divNearestEven hden hlow hhigh hk rfl
    exact ⟨k, _, hscaled, round_eq_min hnum hden hscaled.low hscaled.high hscaled.nearest⟩

/-- The magnitude that is right for a ratio. -/
structure Rounded (f : FloatLayout) (r : ℚ) (m : Nat) : Prop where
  le_infinity : m ≤ f.infinity
  /-- The infinity begins half a unit past the largest finite magnitude. -/
  infinite : m = f.infinity ↔ f.valueOf (f.infinity - 1) + f.lastUnit (f.infinity - 1) / 2 ≤ r
  nearest : m < f.infinity → ∀ m' < f.infinity, |f.valueOf m - r| ≤ |f.valueOf m' - r|
  /-- Of two that are equally near, the one with an even fraction is taken. -/
  even : m < f.infinity → ∀ m' < f.infinity, m' ≠ m → |f.valueOf m' - r| = |f.valueOf m - r| →
    m % f.fractions % 2 = 0

/-- The infinity is where a significand would carry on the largest scale. -/
theorem Proper.infinity_eq (hf : f.Proper) :
    ∃ top, f.infinity = f.compose top (2 * f.fractions) ∧
      f.valueOf (f.infinity - 1) = (2 * f.fractions - 1) * 2 ^ (f.minScale + top) ∧
      f.lastUnit (f.infinity - 1) = 2 ^ (f.minScale + top) := by
  have h4 := hf.four_le_exponents
  have hpos := f.fractions_pos
  obtain ⟨top, htop⟩ := Nat.exists_eq_add_of_le' (show 3 ≤ f.exponents by omega)
  have hinfinity : f.infinity = f.compose top (2 * f.fractions) := by
    rw [infinity, htop, compose, ← Nat.add_mul]
    congr 1
  have hlast : f.infinity - 1 = f.compose top (2 * f.fractions - 1) := by
    rw [hinfinity, compose, compose]
    omega
  have hlt : f.compose top (2 * f.fractions - 1) < f.signBit := by
    have := f.infinity_lt_signBit
    omega
  refine ⟨top, hinfinity, ?_, ?_⟩
  · rw [hlast, valueOf_compose (Or.inr (by omega)) (by omega) hlt]
    push_cast [show 1 ≤ 2 * f.fractions by omega]
    ring
  · have hexponent : f.compose top (2 * f.fractions - 1) / f.fractions = top + 1 := by
      rw [compose]
      apply Nat.div_eq_of_lt_le
      · rw [Nat.add_mul]
        omega
      · rw [Nat.add_mul, Nat.add_mul]
        omega
    rw [lastUnit, hlast, hexponent, Nat.max_eq_left (by omega), minScale]
    congr 1
    push_cast
    ring

namespace Scaled

variable {r : ℚ} {k n : Nat}

/-- On a scale below the largest even a carry stays short of the infinity. -/
theorem below_top (h : f.Scaled r k n) (hf : f.Proper) {top : Nat} (hk : k < top) :
    f.compose k n < f.compose top (2 * f.fractions) ∧
      r < (2 * f.fractions - 1 / 2) * 2 ^ (f.minScale + top) := by
  have htwo : (2 : ℚ) ≤ f.fractions := by exact_mod_cast hf.two_le_fractions
  have hscale := two_mul_scale_le f hk
  constructor
  · have hle := h.le
    have hpos := f.fractions_pos
    have hmul : (k + 1) * f.fractions ≤ top * f.fractions := Nat.mul_le_mul_right _ hk
    rw [Nat.succ_mul k] at hmul
    rw [compose, compose]
    omega
  · calc r = r * 2 ^ (-(f.minScale + k)) * 2 ^ (f.minScale + k) := eq_mul r _
      _ < 2 * f.fractions * 2 ^ (f.minScale + k) :=
          mul_lt_mul_of_pos_right h.high (by positivity)
      _ = f.fractions * (2 * 2 ^ (f.minScale + k)) := by ring
      _ ≤ (2 * f.fractions - 1 / 2) * 2 ^ (f.minScale + top) := by gcongr <;> linarith

/-- On the largest scale the nearest step is a carry from half a unit before it on. -/
theorem carries_iff (h : f.Scaled r k n) :
    2 * f.fractions ≤ n ↔ (2 * f.fractions - 1 / 2) * 2 ^ (f.minScale + k) ≤ r := by
  have hpos : (0 : ℚ) < 2 ^ (f.minScale + k) := by positivity
  have hsteps : (2 * f.fractions - 1 / 2) * 2 ^ (f.minScale + k) ≤ r ↔
      2 * f.fractions - 1 / 2 ≤ r * 2 ^ (-(f.minScale + k)) := by
    nth_rewrite 1 [eq_mul r (f.minScale + k)]
    exact mul_le_mul_iff_left₀ hpos
  rw [hsteps]
  constructor
  · intro hcarry
    have hcarry : (2 * f.fractions : ℚ) ≤ n := by exact_mod_cast hcarry
    have hlow := h.nearest.low
    linarith
  · intro hreach
    by_contra hless
    have hless : n + 1 ≤ 2 * f.fractions := by omega
    have hless' : (n : ℚ) + 1 ≤ 2 * f.fractions := by exact_mod_cast hless
    -- the ratio is half a step above an odd number, and a tie goes to the even one
    have hup := h.nearest.high
    have hodd : (n : ℚ) + 1 = 2 * f.fractions := by linarith
    have hodd : n + 1 = 2 * f.fractions := by exact_mod_cast hodd
    have heven := h.nearest.even (Or.inr (by linarith))
    omega

/-- On a scale above the largest the significand is full. -/
theorem above_top (h : f.Scaled r k n) {top : Nat} (hk : top < k) :
    f.compose top (2 * f.fractions) ≤ f.compose k n ∧
      (2 * f.fractions - 1 / 2) * 2 ^ (f.minScale + top) ≤ r := by
  have hscale := two_mul_scale_le f hk
  constructor
  · have hn : f.fractions ≤ n := h.full.resolve_left (by omega)
    have hmul : (top + 1) * f.fractions ≤ k * f.fractions := Nat.mul_le_mul_right _ hk
    rw [Nat.succ_mul top] at hmul
    rw [compose, compose]
    omega
  · have hlow : (f.fractions : ℚ) ≤ r * 2 ^ (-(f.minScale + k)) := h.low.resolve_left (by omega)
    calc (2 * f.fractions - 1 / 2) * (2 : ℚ) ^ (f.minScale + top)
        ≤ 2 * f.fractions * 2 ^ (f.minScale + top) := by
          gcongr
          linarith
      _ = f.fractions * (2 * 2 ^ (f.minScale + top)) := by ring
      _ ≤ r * 2 ^ (-(f.minScale + k)) * 2 ^ (f.minScale + k) := by
          gcongr
          linarith
      _ = r := (eq_mul r _).symm

/-- The step reaches the infinity exactly if the ratio is at least half a unit past the largest
finite magnitude. -/
theorem infinite_iff (hf : f.Proper) (h : f.Scaled r k n) :
    f.infinity ≤ f.compose k n ↔
      f.valueOf (f.infinity - 1) + f.lastUnit (f.infinity - 1) / 2 ≤ r := by
  obtain ⟨top, hinfinity, hlargest, hunit⟩ := hf.infinity_eq
  have hbound : f.valueOf (f.infinity - 1) + f.lastUnit (f.infinity - 1) / 2 =
      (2 * f.fractions - 1 / 2) * 2 ^ (f.minScale + top) := by
    rw [hlargest, hunit]
    ring
  rw [hbound, hinfinity]
  rcases Nat.lt_trichotomy k top with hk | rfl | hk
  · obtain ⟨hshort, hless⟩ := h.below_top hf hk
    exact iff_of_false hshort.not_ge hless.not_ge
  · rw [← h.carries_iff, compose, compose, Nat.add_le_add_iff_left]
  · obtain ⟨hfar, hreach⟩ := h.above_top hk
    exact iff_of_true hfar hreach

/-- What is right on a scale is right. -/
theorem rounded (hf : f.Proper) (h : f.Scaled r k n) :
    f.Rounded r (min (f.compose k n) f.infinity) := by
  have hpos : (0 : ℚ) < 2 ^ (f.minScale + k) := by positivity
  have hsign := f.infinity_lt_signBit
  have hnear := h.nearest.abs_sub_le
  have hdistance (hlt : f.compose k n < f.infinity) : |f.valueOf (f.compose k n) - r| =
      |n - r * 2 ^ (-(f.minScale + k))| * 2 ^ (f.minScale + k) := by
    rw [valueOf_compose h.full h.le (hlt.trans hsign), abs_sub]
  constructor
  case le_infinity => exact Nat.min_le_right ..
  case infinite => rw [← h.infinite_iff hf, min_eq_right_iff]
  case nearest =>
    intro hlt m' hm'
    have hlt : f.compose k n < f.infinity := by omega
    rw [Nat.min_eq_left hlt.le]
    by_cases hne : m' = f.compose k n
    · rw [hne]
    · calc |f.valueOf (f.compose k n) - r|
          = |n - r * 2 ^ (-(f.minScale + k))| * 2 ^ (f.minScale + k) := hdistance hlt
        _ ≤ 1 / 2 * 2 ^ (f.minScale + k) := by gcongr
        _ ≤ |f.valueOf m' - r| := h.half_le (hm'.trans hsign) hne
  case even =>
    intro hlt m' hm' hne htie
    have hlt : f.compose k n < f.infinity := by omega
    rw [Nat.min_eq_left hlt.le] at hne htie ⊢
    have hhalf := h.half_le (hm'.trans hsign) hne
    rw [htie, hdistance hlt, mul_le_mul_iff_left₀ hpos] at hhalf
    have heven := h.nearest.even_of_abs (le_antisymm hnear hhalf)
    have htwo := hf.two_dvd_fractions
    have hwhole : f.compose k n % 2 = 0 := by
      rw [compose, Nat.add_mod, Nat.mul_mod, Nat.mod_eq_zero_of_dvd htwo]
      simpa using heven
    rw [Nat.mod_mod_of_dvd _ htwo]
    exact hwhole

end Scaled

/-- Rounding is right. -/
theorem rounded_round (hf : f.Proper) (num : Nat) {den : Nat} (hden : 0 < den) :
    f.Rounded ((num : ℚ) / den) (f.round num den) := by
  obtain ⟨k, n, hscaled, hround⟩ := f.exists_scaled num hden
  rw [hround]
  exact hscaled.rounded hf

theorem rounded_roundScaled (hf : f.Proper) (significand : Nat) (scale : Int) :
    f.Rounded (significand * 2 ^ scale) (f.roundScaled significand scale) := by
  have hratio := ratio_mul_power two_pos significand 1 scale
  rw [Nat.one_mul, Nat.cast_one, div_one, Nat.cast_two] at hratio
  rw [← hratio]
  exact rounded_round hf _ (power_pos two_pos _)

end FloatLayout

end ZigbeeGateway
