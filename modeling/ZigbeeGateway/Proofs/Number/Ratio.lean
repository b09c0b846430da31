-- What the whole number arithmetic of rounding computes, said with exact rationals: powers,
-- the nearest whole number of a ratio, and the leading binary place of a ratio.
import Mathlib.Algebra.Order.Field.Power
import Mathlib.Data.Rat.Cast.Order
import Mathlib.Tactic.FieldSimp
import Mathlib.Tactic.Linarith
import Mathlib.Tactic.Positivity
import ZigbeeGateway.Number.Layout
namespace ZigbeeGateway

/-! ## Powers -/

theorem power_pos {base : Nat} (h : 0 < base) (e : Int) : 0 < power base e := Nat.pow_pos h

theorem power_cast (base : Nat) (e : Int) : (power base e : ℚ) = (base : ℚ) ^ e.toNat := by
  simp [power]

/-- A power and the one of the opposite exponent are numerator and denominator of the rational
power. -/
theorem power_div_power {base : Nat} (h : 0 < base) (e : Int) :
    (power base e : ℚ) / power base (-e) = (base : ℚ) ^ e := by
  have hb : (base : ℚ) ≠ 0 := by positivity
  rw [power_cast, power_cast, ← zpow_natCast, ← zpow_natCast, ← zpow_sub₀ hb]
  congr 1
  omega

/-- Scaling a ratio by a power, written without fractions. -/
theorem ratio_mul_power {base : Nat} (h : 0 < base) (num den : Nat) (e : Int) :
    ((num * power base e : Nat) : ℚ) / (den * power base (-e) : Nat) =
      (num : ℚ) / den * (base : ℚ) ^ e := by
  rw [← power_div_power h]
  push_cast
  rw [mul_div_mul_comm]

/-! ## The nearest whole number -/

/-- A whole number at most a half away, an even one if it is exactly a half. -/
structure NearestEven (r : ℚ) (n : Nat) : Prop where
  low : (n : ℚ) - 1 / 2 ≤ r
  high : r ≤ n + 1 / 2
  even : r = (n : ℚ) - 1 / 2 ∨ r = n + 1 / 2 → n % 2 = 0

theorem NearestEven.of_lt {r : ℚ} {n : Nat} (hlow : (n : ℚ) - 1 / 2 < r) (hhigh : r < n + 1 / 2) :
    NearestEven r n where
  low := hlow.le
  high := hhigh.le
  even h := by
    rcases h with h | h
    · exact absurd h hlow.ne'
    · exact absurd h hhigh.ne

theorem nearestEven_natCast (n : Nat) : NearestEven n n :=
  .of_lt (by linarith) (by linarith)

/-- Of two different nearest numbers the ratio is exactly half way, and one of them is odd. -/
theorem NearestEven.le {r : ℚ} {m n : Nat} (hm : NearestEven r m) (hn : NearestEven r n) :
    n ≤ m := by
  by_contra hlt
  have hmn : m + 1 ≤ n := by omega
  have hmn' : (m : ℚ) + 1 ≤ n := by exact_mod_cast hmn
  have hlow := hn.low
  have hhigh := hm.high
  have hnm : n = m + 1 := by
    have : (n : ℚ) ≤ m + 1 := by linarith
    have : n ≤ m + 1 := by exact_mod_cast this
    omega
  have hr : r = (m : ℚ) + 1 / 2 := by
    subst hnm
    push_cast at hlow
    linarith
  have hm2 := hm.even (Or.inr hr)
  have hn2 := hn.even (Or.inl (by subst hnm; push_cast; linarith))
  omega

theorem NearestEven.unique {r : ℚ} {m n : Nat} (hm : NearestEven r m) (hn : NearestEven r n) :
    m = n :=
  Nat.le_antisymm (hn.le hm) (hm.le hn)

/-- Nearest for a ratio, said with whole numbers. -/
theorem nearestEven_ratio {num den n : Nat} (h : 0 < den) (hlow : 2 * (n * den) ≤ 2 * num + den)
    (hhigh : 2 * num ≤ 2 * (n * den) + den)
    (heven : 2 * (n * den) = 2 * num + den ∨ 2 * num = 2 * (n * den) + den → n % 2 = 0) :
    NearestEven ((num : ℚ) / den) n := by
  have hden : (0 : ℚ) < den := by exact_mod_cast h
  have hlow' : 2 * ((n : ℚ) * den) ≤ 2 * num + den := by exact_mod_cast hlow
  have hhigh' : 2 * (num : ℚ) ≤ 2 * (n * den) + den := by exact_mod_cast hhigh
  refine ⟨?_, ?_, ?_⟩
  · rw [le_div_iff₀ hden]
    linarith
  · rw [div_le_iff₀ hden]
    linarith
  · rintro (he | he)
    · rw [div_eq_iff hden.ne'] at he
      exact heven (Or.inl (by exact_mod_cast (by linarith : 2 * ((n : ℚ) * den) = 2 * num + den)))
    · rw [div_eq_iff hden.ne'] at he
      exact heven (Or.inr (by exact_mod_cast (by linarith : 2 * (num : ℚ) = 2 * (n * den) + den)))

theorem nearestEven_divNearestEven (num : Nat) {den : Nat} (h : 0 < den) :
    NearestEven ((num : ℚ) / den) (divNearestEven num den) := by
  have hmod := Nat.mod_lt num h
  have hnum : num = num / den * den + num % den := (Nat.div_add_mod' num den).symm
  have hsucc : (num / den + 1) * den = num / den * den + den := Nat.succ_mul ..
  apply nearestEven_ratio h <;> simp only [divNearestEven] <;> split <;> omega

/-! ## The leading binary place -/

theorem log2_bounds {n : Nat} (h : 0 < n) :
    (2 : ℚ) ^ (n.log2 : ℤ) ≤ n ∧ n < (2 : ℚ) ^ ((n.log2 : ℤ) + 1) := by
  refine ⟨?_, ?_⟩
  · exact_mod_cast Nat.log2_self_le h.ne'
  · exact_mod_cast Nat.lt_log2_self (n := n)

/-- `ratioLog2` is the exponent of the largest power of two up to the ratio. -/
theorem ratioLog2_bounds {num den : Nat} (hnum : 0 < num) (hden : 0 < den) :
    (2 : ℚ) ^ ratioLog2 num den ≤ (num : ℚ) / den ∧
      (num : ℚ) / den < (2 : ℚ) ^ (ratioLog2 num den + 1) := by
  have hd : (0 : ℚ) < den := by exact_mod_cast hden
  obtain ⟨hn1, hn2⟩ := log2_bounds hnum
  obtain ⟨hd1, hd2⟩ := log2_bounds hden
  set l : ℤ := (num.log2 : ℤ) - den.log2 with hl
  have hp : (0 : ℚ) < 2 ^ l := by positivity
  -- the quotient of the leading places is right or one too large
  have hupper : (num : ℚ) / den < 2 ^ (l + 1) := by
    rw [div_lt_iff₀ hd]
    calc (num : ℚ) < 2 ^ ((num.log2 : ℤ) + 1) := hn2
      _ = 2 ^ (l + 1) * 2 ^ (den.log2 : ℤ) := by rw [← zpow_add₀ two_ne_zero]; congr 1; omega
      _ ≤ 2 ^ (l + 1) * den := by gcongr
  have hlower : (2 : ℚ) ^ (l - 1) ≤ (num : ℚ) / den := by
    rw [le_div_iff₀ hd]
    calc (2 : ℚ) ^ (l - 1) * den ≤ 2 ^ (l - 1) * 2 ^ ((den.log2 : ℤ) + 1) := by gcongr
      _ = 2 ^ (num.log2 : ℤ) := by rw [← zpow_add₀ two_ne_zero]; congr 1; omega
      _ ≤ num := hn1
  have htest : den * power 2 l ≤ num * power 2 (-l) ↔ (2 : ℚ) ^ l ≤ (num : ℚ) / den := by
    have hpos : (0 : ℚ) < power 2 (-l) := by exact_mod_cast power_pos two_pos _
    have htwo : (power 2 l : ℚ) / power 2 (-l) = 2 ^ l := mod_cast power_div_power two_pos l
    rw [← htwo, div_le_div_iff₀ hpos hd]
    norm_cast
    rw [Nat.mul_comm (power 2 l)]
  rw [ratioLog2, ← hl]
  split
  · rename_i h
    exact ⟨htest.mp h, hupper⟩
  · rename_i h
    rw [htest, not_le] at h
    exact ⟨hlower, by rwa [sub_add_cancel]⟩

/-- A ratio between two neighbouring powers of two has the lower one's exponent. -/
theorem ratioLog2_eq {num den : Nat} {l : Int} (hnum : 0 < num) (hden : 0 < den)
    (hlow : (2 : ℚ) ^ l ≤ (num : ℚ) / den) (hhigh : (num : ℚ) / den < (2 : ℚ) ^ (l + 1)) :
    ratioLog2 num den = l := by
  obtain ⟨h1, h2⟩ := ratioLog2_bounds hnum hden
  have hle := (zpow_lt_zpow_iff_right₀ (one_lt_two (α := ℚ))).mp (hlow.trans_lt h2)
  have hge := (zpow_lt_zpow_iff_right₀ (one_lt_two (α := ℚ))).mp (h1.trans_lt hhigh)
  omega

end ZigbeeGateway
