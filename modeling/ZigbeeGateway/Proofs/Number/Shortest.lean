-- The shortest decimal of a double rounds to that double. The search only ever takes a decimal
-- that lies in the interval of the double, and with seventeen digits the nearest one always does.
import Mathlib.Data.Nat.Cast.Order.Field
import Mathlib.Tactic.NormNum
import ZigbeeGateway.Number.Shortest
import ZigbeeGateway.Proofs.Number.Conversion
import ZigbeeGateway.Proofs.Text.Digits
namespace ZigbeeGateway

open FloatLayout

/-- The rational that a decimal stands for. -/
def Decimal.rational (d : Decimal) : ℚ := d.digits * (10 : ℚ) ^ d.exponent

theorem Decimal.rational_trim (d : Decimal) : d.trim.rational = d.rational := by
  fun_induction Decimal.trim d with
  | case1 d h ih =>
    have hdigits : d.digits = 10 * (d.digits / 10) := by omega
    rw [ih, rational, rational, zpow_add_one₀ (by norm_num)]
    conv_rhs => rw [hdigits]
    push_cast
    ring
  | case2 => rfl

/-- Two ratios are compared by multiplying across. -/
theorem ratio_le_ratio {a b c d : Nat} (hb : 0 < b) (hd : 0 < d) :
    a * d ≤ c * b ↔ (a : ℚ) / b ≤ (c : ℚ) / d := by
  rw [div_le_div_iff₀ (by exact_mod_cast hb) (by exact_mod_cast hd)]
  exact_mod_cast Iff.rfl

theorem ratio_lt_ratio {a b c d : Nat} (hb : 0 < b) (hd : 0 < d) :
    a * d < c * b ↔ (a : ℚ) / b < (c : ℚ) / d := by
  rw [div_lt_div_iff₀ (by exact_mod_cast hb) (by exact_mod_cast hd)]
  exact_mod_cast Iff.rfl

namespace Shortest

/-! ## Intervals -/

theorem Interval.ratio_div_den (i : Interval) (units : Nat) :
    (i.ratio units : ℚ) / i.den = units * (2 : ℚ) ^ i.scale := by
  have h : (power 2 i.scale : ℚ) / power 2 (-i.scale) = 2 ^ i.scale := by
    exact_mod_cast power_div_power two_pos i.scale
  rw [Interval.ratio, Interval.den, ← h]
  push_cast
  rw [mul_div_assoc]

theorem Interval.den_pos (i : Interval) : 0 < i.den := power_pos two_pos _

theorem digits_div_power (d : Decimal) :
    ((d.digits * power 10 d.exponent : Nat) : ℚ) / power 10 (-d.exponent) = d.rational := by
  have h : (power 10 d.exponent : ℚ) / power 10 (-d.exponent) = 10 ^ d.exponent := by
    exact_mod_cast power_div_power (by norm_num : 0 < 10) d.exponent
  rw [Decimal.rational, ← h]
  push_cast
  rw [mul_div_assoc]

/-- A decimal strictly between the ends of an interval lies in it. -/
theorem Interval.holds_of_lt {i : Interval} {d : Decimal}
    (hlow : (i.low : ℚ) * 2 ^ i.scale < d.rational)
    (hhigh : d.rational < (i.high : ℚ) * 2 ^ i.scale) : i.holds d = true := by
  have hone : 0 < power 10 (-d.exponent) := power_pos (by norm_num) _
  rw [← i.ratio_div_den, ← digits_div_power, ← ratio_lt_ratio i.den_pos hone] at hlow
  rw [← i.ratio_div_den, ← digits_div_power, ← ratio_lt_ratio hone i.den_pos] at hhigh
  simp only [Interval.holds]
  split
  · simp [hlow.le, hhigh.le]
  · simp [hlow, hhigh]

/-- A decimal in an interval lies between its ends, and at an end only if the interval is closed. -/
theorem Interval.bounds_of_holds {i : Interval} {d : Decimal} (h : i.holds d = true) :
    (i.low : ℚ) * 2 ^ i.scale ≤ d.rational ∧ d.rational ≤ (i.high : ℚ) * 2 ^ i.scale ∧
      (d.rational = (i.low : ℚ) * 2 ^ i.scale ∨ d.rational = (i.high : ℚ) * 2 ^ i.scale →
        i.closed = true) := by
  have hone : 0 < power 10 (-d.exponent) := power_pos (by norm_num) _
  rw [← i.ratio_div_den, ← i.ratio_div_den, ← digits_div_power, ← ratio_le_ratio i.den_pos hone,
    ← ratio_le_ratio hone i.den_pos]
  simp only [Interval.holds] at h
  split at h
  · rename_i hclosed
    simp only [Bool.and_eq_true, decide_eq_true_eq] at h
    exact ⟨h.1, h.2, fun _ => hclosed⟩
  · simp only [Bool.and_eq_true, decide_eq_true_eq] at h
    refine ⟨h.1.le, h.2.le, ?_⟩
    have hlow := (ratio_lt_ratio i.den_pos hone).mp h.1
    have hhigh := (ratio_lt_ratio hone i.den_pos).mp h.2
    rintro (he | he)
    · exact absurd he hlow.ne'
    · exact absurd he hhigh.ne

/-! ## The interval of a double -/

variable {x : Double} {k s : Nat}

/-- How far the interval reaches down, in quarters of a step. -/
def below (k s : Nat) : Nat := if s = double.fractions ∧ k ≠ 0 then 1 else 2

theorem below_le (k s : Nat) : below k s ≤ 2 := by
  unfold below
  split <;> omega

/-- The low end of an interval, in quarters of a step. -/
theorem cast_low (k : Nat) (hs : 0 < s) : ((4 * s - below k s : Nat) : ℚ) = 4 * s - below k s := by
  have hbelow := below_le k s
  rw [Nat.cast_sub (by omega)]
  push_cast
  ring

theorem ofDouble_eq (hx : x.significandScale = (s, double.minScale + k)) :
    Interval.ofDouble x = ⟨4 * s - below k s, 4 * s, 4 * s + 2, s % 2 = 0,
      double.minScale + k - 2⟩ := by
  have hscale : double.minScale + k > double.minScale ↔ k ≠ 0 := by omega
  simp only [Interval.ofDouble, hx, below, hscale]

/-- Units are quarters of a step. -/
theorem unit_eq (k : Nat) :
    (2 : ℚ) ^ (double.minScale + k) = 4 * 2 ^ (double.minScale + k - 2) := by
  rw [show (4 : ℚ) = 2 ^ (2 : ℤ) by norm_num, ← zpow_add₀ two_ne_zero]
  congr 1
  omega

/-- A decimal in the interval of a double rounds to it. -/
theorem roundsTo_of_holds (hx : x.significandScale = (s, double.minScale + k)) (hs : 0 < s)
    {d : Decimal} (h : (Interval.ofDouble x).holds d = true) :
    double.RoundsTo k s d.rational := by
  obtain ⟨hlow, hhigh, hend⟩ := Interval.bounds_of_holds h
  rw [ofDouble_eq hx] at hlow hhigh hend
  simp only [decide_eq_true_eq] at hlow hhigh hend
  have hpos : (0 : ℚ) < 2 ^ (double.minScale + k - 2) := by positivity
  have hsplit : d.rational * 2 ^ (-(double.minScale + (k : ℤ))) =
      d.rational / 2 ^ (double.minScale + k - 2) / 4 := by
    rw [zpow_neg, unit_eq, mul_comm (4 : ℚ), div_div, div_eq_mul_inv]
  have hbelow : (below k s : ℚ) ≤ 2 := by exact_mod_cast below_le k s
  rw [← le_div_iff₀ hpos, cast_low k hs] at hlow
  rw [← div_le_iff₀ hpos] at hhigh
  rw [← div_eq_iff hpos.ne', ← div_eq_iff hpos.ne', cast_low k hs] at hend
  push_cast at hhigh hend
  refine ⟨⟨?_, ?_, fun he => hend ?_⟩, fun hfull hk => ?_⟩
  · rw [hsplit]
    linarith
  · rw [hsplit]
    linarith
  · rw [hsplit] at he
    rcases he with he | he
    · refine Or.inl ?_
      linarith
    · refine Or.inr ?_
      linarith
  · have hone : below k s = 1 := if_pos ⟨hfull, hk⟩
    rw [hone] at hlow
    rw [hsplit]
    push_cast at hlow
    linarith

/-! ## The search -/

theorem neighbours_fst (i : Interval) (exponent : Int) : ∃ n,
    (neighbours i exponent).1 = ⟨n, exponent⟩ ∧
      NearestEven (i.middle * (2 : ℚ) ^ i.scale * 10 ^ (-exponent)) n := by
  have hden : 0 < i.den * power 10 exponent := Nat.mul_pos i.den_pos (power_pos (by norm_num) _)
  have hnear := nearestEven_divNearestEven (i.ratio i.middle * power 10 (-exponent)) hden
  have hratio := ratio_mul_power (by norm_num : 0 < 10) (i.ratio i.middle) i.den (-exponent)
  rw [neg_neg, i.ratio_div_den] at hratio
  rw [hratio] at hnear
  push_cast at hnear
  refine ⟨_, ?_, hnear⟩
  simp only [neighbours]
  split
  · rename_i h
    rw [h]
  · rename_i h
    simp only [divNearestEven] at h ⊢
    split at h
    · rename_i hup
      rw [if_pos hup]
    · exact absurd rfl h

theorem holds_of_search {i : Interval} {tries : Nat} {exponent : Int} {d : Decimal}
    (h : search i tries exponent = some d) : i.holds d = true := by
  induction tries generalizing exponent with
  | zero => cases h
  | succ tries ih =>
    rw [search, Option.or_eq_some_iff] at h
    rcases h with h | ⟨-, h⟩
    · simp only [onGrid?] at h
      split at h
      · cases h
        assumption
      · split at h
        · cases h
          assumption
        · cases h
    · exact ih h

theorem exists_search {i : Interval} {tries : Nat} {exponent : Int} {j : Nat} (hj : j < tries)
    (h : i.holds (neighbours i (exponent - j)).1 = true) :
    ∃ d, search i tries exponent = some d := by
  induction tries generalizing exponent j with
  | zero => omega
  | succ tries ih =>
    rw [search]
    rcases hgrid : onGrid? i exponent with _ | d
    · rcases j with _ | j
      · rw [Nat.cast_zero, sub_zero] at h
        simp only [onGrid?, h, if_true] at hgrid
        cases hgrid
      · have hnext : i.holds (neighbours i (exponent - 1 - j)).1 = true := by
          rwa [show exponent - 1 - (j : ℤ) = exponent - (j + 1 : Nat) by push_cast; ring]
        obtain ⟨d, hd⟩ := ih (by omega) hnext
        exact ⟨d, by rw [hd]; rfl⟩
    · exact ⟨d, rfl⟩

theorem power_leadingExponent_le {num den : Nat} (hnum : 0 < num) (hden : 0 < den) :
    (10 : ℚ) ^ leadingExponent num den ≤ (num : ℚ) / den := by
  have hd : (0 : ℚ) < den := by exact_mod_cast hden
  unfold leadingExponent
  split
  · rename_i hle
    have hpos : 0 < num / den := Nat.div_pos hle hden
    have hpow := Numeral.pow_length_digits_le (by norm_num : 2 ≤ 10) hpos
    have hlen := List.length_pos_iff.mpr (Numeral.digits_ne_nil 10 (num / den))
    have hexp : ((Numeral.digits 10 (num / den)).length : ℤ) - 1 =
        ((Numeral.digits 10 (num / den)).length - 1 : Nat) := by omega
    calc (10 : ℚ) ^ (((Numeral.digits 10 (num / den)).length : ℤ) - 1)
        = ((10 ^ ((Numeral.digits 10 (num / den)).length - 1) : Nat) : ℚ) := by
          rw [hexp, zpow_natCast]
          push_cast
          rfl
      _ ≤ ((num / den : Nat) : ℚ) := by exact_mod_cast hpow
      _ ≤ (num : ℚ) / den := Nat.cast_div_le
  · rename_i hlt
    -- below one the digits are counted of the inverse, rounded up
    generalize hq : (den + num - 1) / num = q
    have hlen := Numeral.lt_pow_length_digits (by norm_num : 2 ≤ 10) (q - 1)
    have hceil : den ≤ q * num := by
      have hmod := Nat.mod_lt (den + num - 1) hnum
      have hdiv := Nat.div_add_mod' (den + num - 1) num
      rw [hq] at hdiv
      omega
    have hpow : den ≤ 10 ^ (Numeral.digits 10 (q - 1)).length * num :=
      hceil.trans (Nat.mul_le_mul_right num (by omega))
    have hpow' : (den : ℚ) ≤ 10 ^ (Numeral.digits 10 (q - 1)).length * num := by
      exact_mod_cast hpow
    have hp : (0 : ℚ) < 10 ^ (Numeral.digits 10 (q - 1)).length := by positivity
    rw [zpow_neg, zpow_natCast, le_div_iff₀ hd, inv_mul_le_iff₀ hp]
    exact hpow'

/-- Half a step of the grid with seventeen digits is less than the way to either end. -/
theorem grid_lt_below (hparts : double.Parts k s) {u : ℚ} (hu : 0 < u) {exponent : Int}
    (he : (10 : ℚ) ^ exponent ≤ 4 * s * u) :
    (10 : ℚ) ^ (exponent - 16) < 2 * (below k s * u) := by
  have hgrid : (10 : ℚ) ^ (exponent - 16) * 10 ^ 16 ≤ 4 * s * u := by
    rw [← zpow_natCast, ← zpow_add₀ (by norm_num)]
    simpa using he
  have hwide : (s : ℚ) * 2 < below k s * 10 ^ 16 := by
    have hsmall := hparts.small
    have hfractions : double.fractions = 2 ^ 52 := rfl
    have hnat : s * 2 < below k s * 10 ^ 16 := by
      unfold below
      split
      · omega
      · omega
    exact_mod_cast hnat
  have hmul := mul_lt_mul_of_pos_right hwide hu
  nlinarith

/-- With seventeen digits the nearest decimal lies in the interval. -/
theorem holds_seventeen (hparts : double.Parts k s)
    (hx : x.significandScale = (s, double.minScale + k)) (hs : 0 < s) {exponent : Int}
    (he : (10 : ℚ) ^ exponent ≤ 4 * s * 2 ^ (double.minScale + k - 2)) :
    (Interval.ofDouble x).holds (neighbours (Interval.ofDouble x) (exponent - 16)).1 = true := by
  obtain ⟨n, hn, hnear⟩ := neighbours_fst (Interval.ofDouble x) (exponent - 16)
  rw [hn]
  rw [ofDouble_eq hx] at hnear ⊢
  simp only at hnear
  push_cast at hnear
  have hupos : (0 : ℚ) < 2 ^ (double.minScale + k - 2) := by positivity
  have hstep := grid_lt_below hparts hupos he
  have hbelow : (below k s : ℚ) ≤ 2 := by exact_mod_cast below_le k s
  generalize hu : (2 : ℚ) ^ (double.minScale + k - 2) = u at hnear hupos hstep
  have hg : (0 : ℚ) < 10 ^ (exponent - 16) := by positivity
  have hcancel : 4 * s * u * (10 : ℚ) ^ (-(exponent - 16)) = 4 * s * u / 10 ^ (exponent - 16) := by
    rw [zpow_neg, div_eq_mul_inv]
  rw [hcancel] at hnear
  obtain ⟨hlow, hhigh, -⟩ := hnear
  rw [le_div_iff₀ hg] at hlow
  rw [div_le_iff₀ hg] at hhigh
  refine Interval.holds_of_lt ?_ ?_
  · rw [hu, cast_low k hs, Decimal.rational]
    simp only
    nlinarith
  · rw [hu, Decimal.rational]
    simp only
    push_cast
    nlinarith

end Shortest

open Shortest

/-! ## The shortest decimal -/

/-- The shortest decimal of a double above zero rounds to its magnitude. -/
theorem Double.roundsTo_shortest {x : Double} {k s : Nat} (hparts : double.Parts k s)
    (hx : x.significandScale = (s, double.minScale + k)) (hs : 0 < s) (hzero : x.magnitude ≠ 0) :
    double.RoundsTo k s x.shortest.rational := by
  have hmiddle := (Interval.ofDouble x).ratio_div_den (Interval.ofDouble x).middle
  have hpos : 0 < (Interval.ofDouble x).ratio (Interval.ofDouble x).middle := by
    rw [ofDouble_eq hx]
    exact Nat.mul_pos (by omega : 0 < 4 * s) (power_pos two_pos _)
  have hlead := power_leadingExponent_le hpos (Interval.ofDouble x).den_pos
  rw [hmiddle] at hlead
  generalize hexp : leadingExponent ((Interval.ofDouble x).ratio (Interval.ofDouble x).middle)
    (Interval.ofDouble x).den = exponent at hlead
  have hlead' : (10 : ℚ) ^ exponent ≤ 4 * s * 2 ^ (double.minScale + k - 2) := by
    rw [ofDouble_eq hx] at hlead
    simpa using hlead
  have hholds := holds_seventeen hparts hx hs hlead'
  obtain ⟨d, hd⟩ := exists_search (by norm_num : 16 < 17) hholds
  rw [shortest, if_neg hzero]
  dsimp only
  rw [hexp, hd, Decimal.rational_trim]
  exact roundsTo_of_holds hx hs (holds_of_search hd)

end ZigbeeGateway
