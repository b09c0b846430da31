-- Decoding on machine words is exact. A whole number of few enough places and a power of two are
-- doubles, and so is their product on every scale that a narrow layout has, so nothing is rounded.
import ZigbeeGateway.Number.Scaling
import ZigbeeGateway.Proofs.Number.Words
namespace ZigbeeGateway

open FloatLayout Words

/-! ## What patterns stand for -/

namespace FloatLayout

variable {f : FloatLayout}

/-- What a pattern stands for: a number with a sign, which zero has, too, an infinity, or none. -/
inductive Meaning where
  | nan
  | infinite (negative : Bool)
  | finite (negative : Bool) (value : ℚ)

/-- The meaning of a pattern. The largest exponent is that of the infinities and NaNs. -/
def meaning (f : FloatLayout) (raw : Nat) : Meaning :=
  let m := f.magnitude raw
  if m / f.fractions = f.exponents - 1 then
    if m % f.fractions = 0 then .infinite (f.isNegative raw) else .nan
  else .finite (f.isNegative raw) (f.valueOf m)

theorem meaning_of_lt {raw : Nat} (h : f.magnitude raw < f.infinity) :
    f.meaning raw = .finite (f.isNegative raw) (f.rational (f.magnitude raw)) := by
  have hexponent : f.magnitude raw / f.fractions < f.exponents - 1 :=
    Nat.div_lt_of_lt_mul (Nat.mul_comm _ _ ▸ h)
  unfold meaning
  dsimp only
  rw [if_neg hexponent.ne, valueOf_eq_rational (h.trans f.infinity_lt_signBit)]

theorem meaning_of_eq {raw : Nat} (h : f.magnitude raw = f.infinity) :
    f.meaning raw = .infinite (f.isNegative raw) := by
  unfold meaning
  dsimp only
  rw [h, infinity, Nat.mul_div_cancel _ f.fractions_pos, if_pos rfl, Nat.mul_mod_left, if_pos rfl]

theorem meaning_of_gt {raw : Nat} (h : f.infinity < f.magnitude raw) : f.meaning raw = .nan := by
  have hsign : f.magnitude raw < f.signBit := Nat.mod_lt _ f.signBit_pos
  have hpos := f.fractions_pos
  have htop : f.magnitude raw / f.fractions = f.exponents - 1 := by
    have hadd := f.infinity_add_fractions
    refine Nat.div_eq_of_lt_le (Nat.le_of_lt h) ?_
    rw [Nat.succ_mul]
    exact lt_of_lt_of_eq hsign hadd.symm
  have hfraction : f.magnitude raw % f.fractions ≠ 0 := by
    intro hzero
    have hdiv := Nat.div_add_mod' (f.magnitude raw) f.fractions
    rw [hzero, htop, Nat.add_zero] at hdiv
    exact h.ne hdiv
  unfold meaning
  dsimp only
  rw [if_pos htop, if_neg hfraction]

theorem meaning_eq_nan {raw : Nat} : f.meaning raw = .nan ↔ f.infinity < f.magnitude raw := by
  refine ⟨fun h => ?_, meaning_of_gt⟩
  by_contra hle
  rcases Nat.lt_or_eq_of_le (Nat.not_lt.mp hle) with hlt | heq
  · rw [meaning_of_lt hlt] at h
    cases h
  · rw [meaning_of_eq heq] at h
    cases h

/-- Magnitudes that stand for the same number are the same. -/
theorem Proper.eq_of_rational (hf : f.Proper) {m m' : Nat} (hm : m < f.infinity)
    (hm' : m' < f.infinity) (h : f.rational m = f.rational m') : m = m' := by
  rw [← roundScaled_eq_of_rational hf hm rfl]
  exact roundScaled_eq_of_rational hf hm' h

/-- Patterns that stand for the same, and for something, are the same. -/
theorem Proper.eq_of_meaning (hf : f.Proper) {raw raw' : Nat} (hraw : raw < 2 * f.signBit)
    (hraw' : raw' < 2 * f.signBit) (hnumber : f.meaning raw ≠ .nan)
    (h : f.meaning raw = f.meaning raw') : raw = raw' := by
  have hle := Nat.not_lt.mp (meaning_eq_nan.not.mp hnumber)
  have hle' := Nat.not_lt.mp (meaning_eq_nan.not.mp (h ▸ hnumber))
  rw [← withSign_magnitude hraw, ← withSign_magnitude hraw']
  rcases Nat.lt_or_eq_of_le hle with hm | hm <;> rcases Nat.lt_or_eq_of_le hle' with hm' | hm'
  · rw [meaning_of_lt hm, meaning_of_lt hm', Meaning.finite.injEq] at h
    rw [h.1, hf.eq_of_rational hm hm' h.2]
  · rw [meaning_of_lt hm, meaning_of_eq hm'] at h
    cases h
  · rw [meaning_of_eq hm, meaning_of_lt hm'] at h
    cases h
  · rw [meaning_of_eq hm, meaning_of_eq hm', Meaning.infinite.injEq] at h
    rw [h, hm, hm']

end FloatLayout

/-! ## Doubles by what they stand for -/

namespace Double

theorem meaning_ofMagnitude (negative : Bool) {m : Nat} (h : m < double.infinity) :
    double.meaning (ofMagnitude negative m).pattern = .finite negative (double.rational m) := by
  have hsign := h.trans double.infinity_lt_signBit
  have hm : double.magnitude (double.withSign negative m) = m := magnitude_withSign negative hsign
  rw [pattern_ofMagnitude negative hsign, meaning_of_lt (lt_of_eq_of_lt hm h), hm,
    isNegative_withSign negative hsign]

theorem meaning_infinity (negative : Bool) :
    double.meaning (infinity negative).pattern = .infinite negative := by
  have hsign := double.infinity_lt_signBit
  rw [infinity_eq, pattern_ofMagnitude negative hsign,
    meaning_of_eq (magnitude_withSign negative hsign), isNegative_withSign negative hsign]

theorem negate_ofMagnitude (negative : Bool) {m : Nat} (h : m < double.signBit) :
    (ofMagnitude negative m).negate = ofMagnitude (!negative) m := by
  rw [negate, isNegative_ofMagnitude negative h, magnitude_ofMagnitude negative h]
  rfl

/-- A product that is a double is not rounded. -/
theorem times_ofMagnitude (negative negative' : Bool) {a b m : Nat} (ha : a < double.infinity)
    (hb : b < double.infinity) (hm : m < double.infinity)
    (h : double.rational m = double.rational a * double.rational b) :
    (ofMagnitude negative a).times (ofMagnitude negative' b) =
      ofMagnitude (negative != negative') m := by
  have hinf := double.infinity_lt_signBit
  have hfinite : ∀ (negative : Bool) {m : Nat}, m < double.infinity →
      (ofMagnitude negative m).isInfinite = false := by
    intro negative m hm
    rw [isInfinite, magnitude_ofMagnitude negative (hm.trans hinf)]
    simpa using hm.ne
  have hround : double.roundScaled
      ((double.significandScale a).1 * (double.significandScale b).1)
      ((double.significandScale a).2 + (double.significandScale b).2) = m := by
    refine roundScaled_eq_of_rational proper_double hm ?_
    rw [h, rational, rational, zpow_add₀ two_ne_zero]
    push_cast
    ring
  simp only [times, isNaN_ofMagnitude negative ha.le, isNaN_ofMagnitude negative' hb.le,
    hfinite negative ha, hfinite negative' hb, isNegative_ofMagnitude negative (ha.trans hinf),
    isNegative_ofMagnitude negative' (hb.trans hinf),
    significandScale_ofMagnitude negative (ha.trans hinf),
    significandScale_ofMagnitude negative' (hb.trans hinf), hround, Bool.false_eq_true, or_self,
    if_false]
  rfl

/-- Whole numbers of at most 53 bits are doubles. -/
theorem exists_ofInt {s : Nat} (hs : s < 2 ^ 53) :
    ∃ a < double.infinity, double.rational a = s ∧ ofInt s = ofMagnitude false a := by
  have hscale : double.minScale ≤ 0 := by rw [minScale_double]; decide
  have hsmall : (s : ℚ) * 2 ^ (0 : ℤ) < 2 ^ ((double.bias : ℤ) + 1) := by
    have hlt : (s : ℚ) < 2 ^ (53 : ℤ) := by exact_mod_cast hs
    rw [zpow_zero, mul_one]
    exact hlt.trans_le (zpow_le_zpow_right₀ one_le_two (by rw [bias_double]; decide))
  obtain ⟨a, ha, hr⟩ := exists_rational_eq proper_double (s := s) hs hscale hsmall
  rw [zpow_zero, mul_one] at hr
  have hround : double.round s 1 = a :=
    round_eq_of_rational proper_double Nat.one_pos ha (by rw [Nat.cast_one, div_one, hr])
  have hpos : ¬ (s : Int) < 0 := by omega
  refine ⟨a, ha, hr, ?_⟩
  rw [ofInt, ofRatio, Int.natAbs_natCast, hround, decide_eq_false hpos]
  rfl

/-- From the smallest to the largest, the powers of two are put together as they are. -/
theorem exists_powerOfTwo {n : Int} (hlow : -1074 ≤ n) (hhigh : n ≤ 1023) :
    ∃ b < double.infinity, double.rational b = 2 ^ n ∧
      powerOfTwo? n = some (ofMagnitude false b) := by
  have hinf : double.infinity = 2047 * 2 ^ 52 := rfl
  have hfractions : double.fractions = 2 ^ 52 := rfl
  unfold powerOfTwo?
  rw [if_neg (by omega)]
  by_cases hnormal : -1022 ≤ n
  · obtain ⟨k, hk⟩ := Int.eq_ofNat_of_zero_le (by omega : 0 ≤ n + 1022)
    have hparts : double.Parts k (2 ^ 52) := ⟨by omega, Or.inr (by omega)⟩
    have hcompose : double.compose k (2 ^ 52) = (k + 1) * 2 ^ 52 := (Nat.succ_mul k _).symm
    have hlt : (k + 1) * 2 ^ 52 < double.infinity := by omega
    have hrational := rational_compose hparts
      (lt_of_eq_of_lt hcompose (hlt.trans double.infinity_lt_signBit))
    have hint : int? (n + 1023) = some ((k + 1 : Nat) : Int) := by
      rw [int?_of_mem (by omega) (by omega)]
      exact congrArg some (by omega)
    have hshift : shiftLeft? (k + 1) (52 : Nat) = some ((k + 1) * 2 ^ 52) :=
      shiftLeft?_eq (by decide) (by omega)
    have hexponent : ((52 : Nat) : ℤ) + (-1074 + k) = n := by omega
    rw [Nat.cast_ofNat] at hshift
    refine ⟨(k + 1) * 2 ^ 52, hlt, ?_, ?_⟩
    · rw [← hcompose, hrational, minScale_double, Nat.cast_pow, Nat.cast_ofNat, ← zpow_natCast,
        ← zpow_add₀ two_ne_zero, hexponent]
    · rw [if_pos hnormal, step hint, step (word?_of_lt (by omega)), hshift]
      rfl
  · obtain ⟨k, hk⟩ := Int.eq_ofNat_of_zero_le (by omega : 0 ≤ n + 1074)
    have hpow : 2 ^ k < 2 ^ 52 := Nat.pow_lt_pow_right (by decide) (by omega)
    have hparts : double.Parts 0 (2 ^ k) := ⟨by omega, Or.inl rfl⟩
    have hcompose : double.compose 0 (2 ^ k) = 2 ^ k := by rw [compose, Nat.zero_mul, Nat.zero_add]
    have hlt : 2 ^ k < double.infinity := by omega
    have hrational := rational_compose hparts
      (lt_of_eq_of_lt hcompose (hlt.trans double.infinity_lt_signBit))
    have hint : int? (n + 1074) = some (k : Int) := by
      rw [int?_of_mem (by omega) (by omega), hk]
    have hexponent : (k : ℤ) + (-1074 + (0 : Nat)) = n := by omega
    refine ⟨2 ^ k, hlt, ?_, ?_⟩
    · rw [← hcompose, hrational, minScale_double, Nat.cast_pow, Nat.cast_ofNat, ← zpow_natCast,
        ← zpow_add₀ two_ne_zero, hexponent]
    · rw [if_neg hnormal, if_pos hlow, step hint, shiftLeft?_one (by omega)]
      rfl

end Double

namespace FloatLayout

variable {f : FloatLayout}

/-! ## Steps -/

theorem Narrow.scale?_eq (hf : f.Narrow) {s exponent m : Nat} (hs : s < 2 ^ 53)
    (hlow : 1 ≤ exponent) (hhigh : exponent ≤ 2 * f.bias) (hm : m < double.infinity)
    (h : double.rational m = s * 2 ^ ((exponent : ℤ) - f.bias - f.fractionBits)) :
    f.scale? s exponent = some (Double.ofMagnitude false m) := by
  have hbits := hf.fraction_le
  have hbias := hf.bias_le
  rw [bias_double] at hbias
  have hunbiased : int? ((exponent : Int) - f.bias) = some ((exponent : Int) - f.bias) :=
    int?_of_mem (by omega) (by omega)
  have hscale : int? ((exponent : Int) - f.bias - f.fractionBits) =
      some ((exponent : Int) - f.bias - f.fractionBits) := int?_of_mem (by omega) (by omega)
  obtain ⟨a, ha, har, hsignificand⟩ := Double.exists_ofInt hs
  obtain ⟨b, hb, hbr, hpower⟩ := Double.exists_powerOfTwo
    (n := (exponent : Int) - f.bias - f.fractionBits) (by omega) (by omega)
  rw [← har, ← hbr] at h
  unfold scale?
  rw [step hf.bias?_eq, step hunbiased, step hscale, step hpower, hsignificand,
    Double.times_ofMagnitude false false ha hb hm h]
  rfl

/-- The fields of a finite pattern give the double for its number. -/
theorem Narrow.decodeFields?_eq (hf : f.Narrow) {a m : Nat} (ha : a < f.infinity)
    (hm : m < double.infinity) (h : double.rational m = f.rational a) :
    f.decodeFields? (a / f.fractions) (a % f.fractions) = some (Double.ofMagnitude false m) := by
  have hbits := hf.fraction_le
  have hexponents := hf.exponents_eq
  have hlarge : f.fractions ≤ 2 ^ 52 := hf.fractions_le
  have hfraction := Nat.mod_lt a f.fractions_pos
  have hbias : 1 ≤ 2 * f.bias := by
    have := hf.four_le_exponents
    omega
  have hexponent : a / f.fractions < f.exponents - 1 :=
    Nat.div_lt_of_lt_mul (Nat.mul_comm _ _ ▸ ha)
  have hmagnitude := magnitude_of_lt (ha.trans f.infinity_lt_signBit)
  unfold rational significandScale at h
  rw [hmagnitude] at h
  unfold decodeFields?
  rw [step hf.topExponent?_eq, if_neg hexponent.ne]
  by_cases hzero : a / f.fractions = 0
  · rw [if_pos hzero] at h ⊢
    rw [minScale] at h
    exact hf.scale?_eq (by omega) le_rfl hbias hm h
  · rw [if_neg hzero] at h ⊢
    have hone := shiftLeft?_one (by omega : f.fractionBits < 64)
    have hor := Nat.two_pow_add_eq_or_of_lt hfraction 1
    rw [Nat.mul_one, Nat.or_comm] at hor
    have hscale : f.minScale + ((a / f.fractions : Nat) - 1 : ℤ) =
        (a / f.fractions : Nat) - f.bias - f.fractionBits := by
      rw [minScale]
      ring
    rw [hscale] at h
    rw [step hone, ← hor]
    exact hf.scale?_eq (by rw [← fractions_eq]; omega) (Nat.pos_of_ne_zero hzero) (by omega) hm h

/-- The sign bit turns the sign of a magnitude. -/
theorem signed_ofMagnitude (raw : Nat) {m : Nat} (h : m < double.signBit) :
    (if raw / f.signBit &&& 1 = 1 then (Double.ofMagnitude false m).negate
      else Double.ofMagnitude false m) = Double.ofMagnitude (f.isNegative raw) m := by
  rw [Nat.and_one_is_mod, isNegative, Double.negate_ofMagnitude false h]
  by_cases hbit : raw / f.signBit % 2 = 1
  · rw [if_pos hbit, decide_eq_true hbit]
    rfl
  · rw [if_neg hbit, decide_eq_false hbit]

/-- Every step of decoding a pattern that is not a NaN succeeds. -/
theorem Narrow.decode?_eq (hf : f.Narrow) {raw : Nat} (h : f.magnitude raw ≤ f.infinity) :
    f.decode? raw = some (f.decode raw) := by
  have hbits := hf.fractionBits_le
  have hexponents := hf.four_le_exponents
  -- without its sign the pattern decodes to a double without a sign
  obtain ⟨m, hm, hfields, hdecode⟩ : ∃ m ≤ double.infinity,
      f.decodeFields? (f.magnitude raw / f.fractions) (f.magnitude raw % f.fractions) =
        some (Double.ofMagnitude false m) ∧
      f.decode raw = Double.ofMagnitude (f.isNegative raw) m := by
    rcases Nat.lt_or_eq_of_le h with hlt | heq
    · obtain ⟨m, hm, hr, hdecode⟩ := hf.decode_finite hlt
      have hr := hr.trans (rational_magnitude raw).symm
      exact ⟨m, hm.le, hf.decodeFields?_eq hlt hm hr, hdecode⟩
    · refine ⟨double.infinity, le_rfl, ?_, decode_infinite heq⟩
      unfold decodeFields?
      rw [step hf.topExponent?_eq, heq, infinity, Nat.mul_div_cancel _ f.fractions_pos,
        Nat.mul_mod_left, if_pos rfl]
      rfl
  have hwidth : count? ((f.fractionBits : Int) + f.exponentBits) =
      some ((f.fractionBits + f.exponentBits : Nat) : Int) := count?_of_mem (by omega) (by omega)
  have hone := shiftLeft?_one (by omega : f.fractionBits < 64)
  have hmask : word? (((2 ^ f.fractionBits : Nat) : Int) - 1) = some (2 ^ f.fractionBits - 1) :=
    word?_pred (Nat.two_pow_pos _) (Nat.pow_lt_pow_right (by decide) (by omega))
  have hsign : 2 ^ (f.fractionBits + f.exponentBits) = f.signBit := by
    rw [signBit_eq, Nat.add_comm]
  have hexponent : raw / 2 ^ f.fractionBits &&& (f.exponents - 1) =
      f.magnitude raw / f.fractions := by
    rw [exponents_eq_pow, Nat.and_two_pow_sub_one_eq_mod, magnitude, signBit, ← fractions_eq,
      ← exponents_eq_pow, Nat.mod_mul_left_div_self]
  have hfraction : raw &&& (2 ^ f.fractionBits - 1) = f.magnitude raw % f.fractions := by
    rw [Nat.and_two_pow_sub_one_eq_mod, ← fractions_eq]
    exact (Nat.mod_mod_of_dvd raw (Dvd.intro_left _ rfl)).symm
  unfold decode?
  rw [step hwidth, step (shiftRight?_eq (by omega)), step (shiftRight?_eq (by omega)), step hone,
    step hmask, step hf.topExponent?_eq, hexponent, hfraction, step hfields, hsign, hdecode,
    ← signed_ofMagnitude raw (hm.trans_lt double.infinity_lt_signBit)]
  rfl

/-! ## The law -/

/-- Decoding is exact, and encoding undoes it. In a layout whose fields are no wider than a double's
every pattern that is not a NaN decodes, without a step that overflows, to the one double that
stands for the same, and that double is encoded as the pattern again. A double keeps its bits. -/
theorem decoding_is_exact_and_undone (hf : f.Narrow) {raw : Nat} (hraw : raw < 2 * f.signBit)
    (hnumber : f.meaning raw ≠ .nan) :
    f.decode? raw = some (f.decode raw) ∧
      (∀ x : Double, double.meaning x.pattern = f.meaning raw ↔ x = f.decode raw) ∧
      f.encode? (f.decode raw) = some raw ∧
      (f = double → (f.decode raw).pattern = raw) := by
  have hle := Nat.not_lt.mp (meaning_eq_nan.not.mp hnumber)
  have hmeaning : double.meaning (f.decode raw).pattern = f.meaning raw := by
    rcases Nat.lt_or_eq_of_le hle with hlt | heq
    · obtain ⟨m, hm, hr, hdecode⟩ := hf.decode_finite hlt
      rw [hdecode, Double.meaning_ofMagnitude _ hm, meaning_of_lt hlt, rational_magnitude, hr]
    · rw [decode_infinite heq, Double.meaning_infinity, meaning_of_eq heq]
  have hunique : ∀ x : Double, double.meaning x.pattern = f.meaning raw ↔ x = f.decode raw := by
    intro x
    refine ⟨fun hx => ?_, fun hx => hx ▸ hmeaning⟩
    have hpattern := proper_double.eq_of_meaning x.bits.toNat_lt (f.decode raw).bits.toNat_lt
      (hx ▸ hnumber) (hx.trans hmeaning.symm)
    rw [← x.ofPattern_pattern, ← (f.decode raw).ofPattern_pattern]
    exact congrArg Double.ofPattern hpattern
  refine ⟨hf.decode?_eq hle, hunique, ?_, ?_⟩
  · rw [hf.encode?_eq, hf.encode_decode hraw hle]
  · rintro rfl
    have hself := Double.pattern_ofPattern hraw
    rw [← (hunique (Double.ofPattern raw)).mp (congrArg double.meaning hself), hself]

/-- The largest number below zero. Its significand is scaled by a power of two that is itself the
smallest double. -/
theorem the_smallest_double_keeps_its_bits :
    let raw := 0x8000000000000001
    double.Narrow ∧ raw < 2 * double.signBit ∧ double.meaning raw ≠ .nan ∧
      double.decode? raw = some (double.decode raw) ∧
      (∀ x : Double, double.meaning x.pattern = double.meaning raw ↔ x = double.decode raw) ∧
      double.encode? (double.decode raw) = some raw ∧ (double.decode raw).pattern = raw := by
  intro raw
  have hraw : raw < 2 * double.signBit := by decide
  have hnumber : double.meaning raw ≠ .nan := meaning_eq_nan.not.mpr (by decide)
  obtain ⟨hsteps, hunique, hback, hbits⟩ := decoding_is_exact_and_undone narrow_double hraw hnumber
  exact ⟨narrow_double, hraw, hnumber, hsteps, hunique, hback, hbits rfl⟩

/-- The smallest number of single precision has an exponent of its own as a double. -/
example : single.decode? 1 = some ⟨0x36a0000000000000⟩ := by decide +kernel

end FloatLayout

end ZigbeeGateway
