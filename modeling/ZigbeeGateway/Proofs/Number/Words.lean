-- Encoding on machine words: no step leaves its range, and what comes of it is the nearest pattern.
import ZigbeeGateway.Number.Words
import ZigbeeGateway.Proofs.Number.Nearest
namespace ZigbeeGateway

/-! ## Quotients to the nearest -/

theorem divNearestEven_one (n : Nat) : divNearestEven n 1 = n := by
  simp only [divNearestEven, Nat.mod_one, Nat.div_one]
  exact if_neg (by omega)

theorem divNearestEven_of_lt {n den : Nat} (h : 2 * n < den) : divNearestEven n den = 0 := by
  rw [divNearestEven, Nat.div_eq_of_lt (by omega), Nat.mod_eq_of_lt (by omega)]
  exact if_neg (by omega)

theorem le_divNearestEven {n num den : Nat} (hden : 0 < den) (h : n * den ≤ num) :
    n ≤ divNearestEven num den := by
  have hq := (Nat.le_div_iff_mul_le hden).mpr h
  rw [divNearestEven]
  split <;> omega

theorem divNearestEven_le {n num den : Nat} (hden : 0 < den) (h : num < n * den) :
    divNearestEven num den ≤ n := by
  have hq := (Nat.div_lt_iff_lt_mul hden).mpr h
  rw [divNearestEven]
  split <;> omega

theorem two_pow_eq_double {n : Nat} (hpos : 0 < n) : 2 ^ n = 2 * 2 ^ (n - 1) := by
  rw [← Nat.pow_succ']
  congr 1
  omega

/-! ## Steps -/

namespace Words

/-- A step that succeeds. -/
theorem step {α β : Type} {x : Option α} {a : α} (h : x = some a) (next : α → Option β) :
    (x >>= next) = next a := by
  rw [h]
  rfl

theorem word?_of_lt {n : Nat} (h : n < 2 ^ 64) : word? n = some n := by
  have hmem : (0 : Int) ≤ n ∧ (n : Int) < 0x10000000000000000 := by omega
  rw [word?, if_pos hmem, Int.toNat_natCast]

theorem word?_sub {m n : Nat} (hle : n ≤ m) (h : m < 2 ^ 64) :
    word? ((m : Int) - n) = some (m - n) := by
  rw [← Nat.cast_sub hle]
  exact word?_of_lt (by omega)

theorem word?_pred {n : Nat} (hpos : 0 < n) (h : n < 2 ^ 64) :
    word? ((n : Int) - 1) = some (n - 1) := word?_sub hpos h

theorem word?_succ {n : Nat} (h : n + 1 < 2 ^ 64) : word? ((n : Int) + 1) = some (n + 1) :=
  word?_of_lt h

theorem int?_of_mem {n : Int} (hlow : -0x80000000 ≤ n) (hhigh : n < 0x80000000) : int? n = some n :=
  if_pos ⟨hlow, hhigh⟩

theorem count?_of_mem {n : Int} (hlow : 0 ≤ n) (hhigh : n < 0x100000000) : count? n = some n :=
  if_pos ⟨hlow, hhigh⟩

theorem shiftLeft?_eq {word amount : Nat} (hamount : amount < 64) (h : word * 2 ^ amount < 2 ^ 64) :
    shiftLeft? word amount = some (word * 2 ^ amount) := by
  have hmem : (0 : Int) ≤ amount ∧ (amount : Int) < 64 := by omega
  rw [shiftLeft?, if_pos hmem, Int.toNat_natCast, Nat.shiftLeft_eq, word?_of_lt h]

theorem shiftLeft?_one {amount : Nat} (h : amount < 64) :
    shiftLeft? 1 amount = some (2 ^ amount) := by
  have hlt : 2 ^ amount < 2 ^ 64 := Nat.pow_lt_pow_right (by decide) h
  rw [shiftLeft?_eq h (by omega), Nat.one_mul]

theorem shiftRight?_eq {word amount : Nat} (h : amount < 64) :
    shiftRight? word amount = some (word / 2 ^ amount) := by
  have hmem : (0 : Int) ≤ amount ∧ (amount : Int) < 64 := by omega
  rw [shiftRight?, if_pos hmem, Int.toNat_natCast, Nat.shiftRight_eq_div_pow]

theorem leadingZeros_eq {word : Nat} (hpos : 0 < word) (hlt : word < 2 ^ 64) :
    (63 : Int) - leadingZeros word = word.log2 := by
  have hlog : word.log2 < 64 := (Nat.log2_lt hpos.ne').mpr hlt
  rw [leadingZeros, if_neg hpos.ne']
  omega

/-- A count that one is taken from. -/
theorem count?_pred {n : Nat} (hpos : 0 < n) (h : n < 2 ^ 31) :
    count? ((n : Int) - 1) = some ((n - 1 : Nat) : Int) := by
  rw [count?_of_mem (by omega) (by omega)]
  exact congrArg some (by omega)

/-- A rounding shift divides by a power of two and takes the nearest. -/
theorem roundShift?_eq {word : Nat} (amount : Nat) (h : word < 2 ^ 53) :
    roundShift? word amount = some (divNearestEven word (2 ^ amount)) := by
  unfold roundShift?
  rcases Nat.eq_zero_or_pos amount with rfl | hpos
  · have hzero : ((0 : Nat) : Int) ≤ 0 := le_rfl
    have hint : int? (-((0 : Nat) : Int)) = some ((0 : Nat) : Int) := rfl
    have hshift : shiftLeft? word (0 : Nat) = some (word * 2 ^ 0) :=
      shiftLeft?_eq (by decide) (by omega)
    rw [if_pos hzero, step hint, hshift, pow_zero, Nat.mul_one, divNearestEven_one]
  · rw [if_neg (by omega)]
    by_cases hlarge : 64 ≤ amount
    · have hpow : 2 ^ 64 ≤ 2 ^ amount := Nat.pow_le_pow_right two_pos hlarge
      rw [if_pos (by omega), divNearestEven_of_lt (by omega)]
      rfl
    · have hamount : amount < 64 := by omega
      have hpow := two_pow_eq_double hpos
      have hlt : 2 ^ amount < 2 ^ 64 := Nat.pow_lt_pow_right (by decide) hamount
      have hmask := word?_pred (Nat.two_pow_pos amount) hlt
      have hcount : int? ((amount : Int) - 1) = some ((amount - 1 : Nat) : Int) := by
        rw [int?_of_mem (by omega) (by omega)]
        congr 1
        omega
      have hhalf := shiftLeft?_one (by omega : amount - 1 < 64)
      have hnext : word / 2 ^ amount + 1 < 2 ^ 64 := by
        have := Nat.div_le_self word (2 ^ amount)
        omega
      rw [if_neg (by omega), step (shiftRight?_eq hamount), step (shiftLeft?_one hamount),
        step hmask, step hcount, step hhalf, Nat.and_two_pow_sub_one_eq_mod, Nat.and_one_is_mod,
        word?_succ hnext, divNearestEven]
      split <;> split <;> first | omega | rfl

end Words

/-! ## Patterns -/

namespace FloatLayout

open Words

variable {f : FloatLayout}

theorem exponents_eq_pow (f : FloatLayout) : f.exponents = 2 ^ f.exponentBits := rfl

theorem Narrow.fractionBits_le (hf : f.Narrow) : f.fractionBits + f.exponentBits ≤ 63 := by
  have := hf.fraction_le
  have := hf.exponent_le
  omega

theorem signBit_eq (f : FloatLayout) : f.signBit = 2 ^ (f.exponentBits + f.fractionBits) :=
  (pow_add ..).symm

theorem Narrow.signBit_lt (hf : f.Narrow) : f.signBit < 2 ^ 64 := by
  have := hf.fractionBits_le
  rw [signBit_eq]
  exact Nat.pow_lt_pow_right (by decide) (by omega)

theorem Narrow.exponents_le (hf : f.Narrow) : f.exponents ≤ 2048 :=
  Nat.pow_le_pow_right (n := 2) two_pos hf.exponent_le

theorem Narrow.bias?_eq (hf : f.Narrow) : f.bias? = some (f.bias : Int) := by
  have hlow := hf.exponent
  have hhigh := hf.exponent_le
  have hexponents := hf.exponents_eq
  have hsmall := hf.exponents_le
  have hcount := count?_pred (by omega : 0 < f.exponentBits) (by omega)
  have hbias : 2 ^ (f.exponentBits - 1) = f.bias + 1 := by
    rw [exponents_eq_pow, two_pow_eq_double (by omega)] at hexponents
    omega
  have hshift := shiftLeft?_one (by omega : f.exponentBits - 1 < 64)
  rw [hbias] at hshift
  have hint : int? ((f.bias + 1 : Nat) : Int) = some ((f.bias + 1 : Nat) : Int) :=
    int?_of_mem (by omega) (by omega)
  unfold bias?
  rw [step hcount, step hshift, step hint, int?_of_mem (by omega) (by omega)]
  exact congrArg some (by omega)

theorem Narrow.topExponent?_eq (hf : f.Narrow) : f.topExponent? = some (f.exponents - 1) := by
  have hhigh := hf.exponent_le
  have hexponents := hf.exponents_le
  unfold topExponent?
  rw [step (shiftLeft?_one (by omega : f.exponentBits < 64)), ← exponents_eq_pow]
  exact word?_pred (Nat.two_pow_pos _) (by omega)

/-- Fields that fit do not meet. -/
theorem Narrow.pack?_eq (hf : f.Narrow) (negative : Bool) {exponent fraction : Nat}
    (hexponent : exponent < f.exponents) (hfraction : fraction < f.fractions) :
    f.pack? (f.withSign negative 0) exponent fraction =
      some (f.withSign negative (exponent * f.fractions + fraction)) := by
  have hbits := hf.fraction_le
  have hsign := hf.signBit_lt
  have hfit : exponent * f.fractions + fraction < f.signBit := by
    have hmul : (exponent + 1) * f.fractions ≤ f.signBit := Nat.mul_le_mul_right _ hexponent
    rw [Nat.succ_mul] at hmul
    omega
  have hshift : shiftLeft? exponent f.fractionBits = some (exponent * f.fractions) :=
    shiftLeft?_eq (by omega) (by rw [← fractions_eq]; omega)
  have hor : exponent * f.fractions ||| fraction = exponent * f.fractions + fraction := by
    rw [Nat.mul_comm, fractions_eq, Nat.two_pow_add_eq_or_of_lt hfraction]
  unfold pack?
  rw [step hshift, Nat.or_assoc, hor]
  cases negative
  · simp only [withSign, Bool.false_eq_true, if_false, Nat.zero_or]
    rfl
  · rw [signBit_eq] at hfit
    have hor := Nat.two_pow_add_eq_or_of_lt hfit 1
    rw [Nat.mul_one] at hor
    simp only [withSign, if_true, Nat.add_zero, signBit_eq, hor]
    rfl

/-! ## Rounding -/

/-- On a scale on which a shifted significand is full, or on the smallest scale, the shift gives the
step that rounding takes. -/
theorem scaled_shift {s k shift : Nat} {scale : Int} (hscale : f.minScale + k = scale + shift)
    (hlow : k = 0 ∨ f.fractions * 2 ^ shift ≤ s) (hhigh : s < 2 * f.fractions * 2 ^ shift) :
    f.Scaled (s * 2 ^ scale) k (divNearestEven s (2 ^ shift)) := by
  have hpos : (0 : ℚ) < (2 ^ shift : Nat) := by exact_mod_cast Nat.two_pow_pos shift
  have hsteps : (s : ℚ) * 2 ^ scale * 2 ^ (-(f.minScale + k)) = (s : ℚ) / (2 ^ shift : Nat) := by
    rw [hscale, mul_assoc, ← zpow_add₀ two_ne_zero, neg_add, add_neg_cancel_left, zpow_neg,
      zpow_natCast, div_eq_mul_inv]
    push_cast
    rfl
  constructor
  case low =>
    rw [hsteps, le_div_iff₀ hpos]
    exact hlow.imp_right fun h => by exact_mod_cast h
  case high =>
    rw [hsteps, div_lt_iff₀ hpos]
    exact_mod_cast hhigh
  case nearest =>
    rw [hsteps]
    exact nearestEven_divNearestEven s (Nat.two_pow_pos shift)

/-- Rounding takes the step that is right on a scale. -/
theorem Scaled.roundScaled_eq {s k n : Nat} {scale : Int} (hs : 0 < s)
    (h : f.Scaled (s * 2 ^ scale) k n) :
    f.roundScaled s scale = min (f.compose k n) f.infinity := by
  have hratio := ratio_mul_power two_pos s 1 scale
  rw [Nat.one_mul, Nat.cast_one, div_one, Nat.cast_two] at hratio
  rw [← hratio] at h
  exact round_eq_min (Nat.mul_pos hs (power_pos two_pos _)) (power_pos two_pos _) h.low h.high
    h.nearest

/-- The significand of a double that has an exponent in the layout, too, loses the places that the
layout does not have. -/
theorem Narrow.scaled_normal (hf : f.Narrow) {s j : Nat} {scale : Int} (hlow : 2 ^ 52 ≤ s)
    (hhigh : s < 2 ^ 53) (hj : scale + 52 + f.bias = (j + 1 : Nat)) :
    f.fractions ≤ divNearestEven s (2 ^ (52 - f.fractionBits)) ∧
      f.Scaled (s * 2 ^ scale) j (divNearestEven s (2 ^ (52 - f.fractionBits))) := by
  have hbits := hf.fraction_le
  have hpow : f.fractions * 2 ^ (52 - f.fractionBits) = 2 ^ 52 := by
    rw [fractions_eq, ← pow_add]
    congr 1
    omega
  rw [← hpow] at hlow
  refine ⟨le_divNearestEven (Nat.two_pow_pos _) hlow, scaled_shift ?_ (Or.inr hlow) ?_⟩
  · rw [minScale]
    omega
  · rw [Nat.mul_assoc, hpow]
    omega

/-- A significand below the full ones goes to the nearest step of the smallest scale. -/
theorem Proper.roundScaled_tiny (hf : f.Proper) {s shift : Nat} {scale : Int} (hs : 0 < s)
    (hshift : f.minScale = scale + shift) (hbelow : s < f.fractions * 2 ^ shift) :
    divNearestEven s (2 ^ shift) ≤ f.fractions ∧
      f.roundScaled s scale = divNearestEven s (2 ^ shift) := by
  have hn := divNearestEven_le (Nat.two_pow_pos shift) hbelow
  have hscaled : f.Scaled (s * 2 ^ scale) 0 (divNearestEven s (2 ^ shift)) := by
    refine scaled_shift (by omega) (Or.inl rfl) ?_
    rw [Nat.mul_assoc]
    omega
  have hle : 1 * f.fractions ≤ f.infinity := by
    have := hf.four_le_exponents
    exact Nat.mul_le_mul_right _ (by omega)
  refine ⟨hn, ?_⟩
  rw [hscaled.roundScaled_eq hs, compose]
  omega

/-- A full significand is packed into the pattern for it, or into the infinity if its exponent is
too large. -/
theorem Narrow.packNormal?_eq (hf : f.Narrow) (negative : Bool) {k n : Nat}
    (hlow : f.fractions ≤ n) (hhigh : n < 2 * f.fractions) :
    f.packNormal? (f.withSign negative 0) n ((k + 1 : Nat) : Int) =
      some (f.withSign negative (min (f.compose k n) f.infinity)) := by
  have hbits := hf.fraction_le
  have hexponents := hf.four_le_exponents
  have hfractions := f.fractions_pos
  have hsign := hf.signBit_lt
  have hone := shiftLeft?_one (by omega : f.fractionBits < 64)
  rw [← fractions_eq] at hone
  unfold packNormal?
  rw [step hf.topExponent?_eq, Int.toNat_natCast]
  split
  · rename_i htop
    have hmul : (f.exponents - 1) * f.fractions ≤ (k + 1) * f.fractions :=
      Nat.mul_le_mul_right _ htop
    rw [← infinity, Nat.succ_mul] at hmul
    have hmin : min (f.compose k n) f.infinity = f.infinity := by
      rw [compose]
      omega
    rw [hf.pack?_eq negative (by omega) hfractions, hmin, ← infinity, Nat.add_zero]
  · rename_i htop
    have hmul : (k + 2) * f.fractions ≤ (f.exponents - 1) * f.fractions :=
      Nat.mul_le_mul_right _ (by omega)
    rw [← infinity, Nat.add_mul] at hmul
    have hmin : min (f.compose k n) f.infinity = (k + 1) * f.fractions + (n - f.fractions) := by
      rw [compose, Nat.succ_mul]
      omega
    have hrest : word? ((n : Int) - f.fractions) = some (n - f.fractions) := by
      have := f.infinity_add_fractions
      exact word?_sub hlow (by omega)
    rw [step hone, step hrest, hf.pack?_eq negative (by omega) (by omega), hmin]

theorem Narrow.packRounded?_eq (hf : f.Narrow) (negative : Bool) {k n : Nat}
    (hlow : f.fractions ≤ n) (hhigh : n ≤ 2 * f.fractions) (hk : k < 4096) :
    f.packRounded? (f.withSign negative 0) n ((k + 1 : Nat) : Int) =
      some (f.withSign negative (min (f.compose k n) f.infinity)) := by
  have hbits := hf.fraction_le
  have hfractions := f.fractions_pos
  have hcount : count? ((f.fractionBits : Int) + 1) = some ((f.fractionBits + 1 : Nat) : Int) :=
    count?_of_mem (by omega) (by omega)
  have hdouble := shiftLeft?_one (by omega : f.fractionBits + 1 < 64)
  rw [Nat.pow_succ', ← fractions_eq] at hdouble
  unfold packRounded?
  rw [step hcount, step hdouble]
  split
  · rename_i hcarry
    have hhalf : shiftRight? n (1 : Nat) = some f.fractions := by
      rw [shiftRight?_eq (by decide), hcarry, pow_one, Nat.mul_div_cancel_left _ two_pos]
    rw [Nat.cast_one] at hhalf
    have hnext : int? (((k + 1 : Nat) : Int) + 1) = some ((k + 1 + 1 : Nat) : Int) :=
      int?_of_mem (by omega) (by omega)
    have hcompose : f.compose k n = f.compose (k + 1) f.fractions := by
      rw [compose, compose, hcarry, Nat.succ_mul k]
      omega
    rw [step hhalf, step hnext, hf.packNormal?_eq negative le_rfl (by omega), hcompose]
  · rename_i hcarry
    exact hf.packNormal?_eq negative hlow (by omega)

/-- A significand on the smallest scale is packed into the pattern for it. -/
theorem Narrow.packSmall?_eq (hf : f.Narrow) (negative : Bool) {n : Nat} (h : n ≤ f.fractions) :
    f.packSmall? (f.withSign negative 0) n = some (f.withSign negative n) := by
  have hbits := hf.fraction_le
  have hexponents := hf.four_le_exponents
  have hshift := shiftLeft?_one (by omega : f.fractionBits < 64)
  rw [← fractions_eq] at hshift
  unfold packSmall?
  rw [step hshift]
  split
  · rename_i hcarry
    rw [hf.pack?_eq negative (by omega) f.fractions_pos, hcarry, Nat.one_mul, Nat.add_zero]
  · rename_i hcarry
    rw [hf.pack?_eq negative (by omega) (by omega), Nat.zero_mul, Nat.zero_add]

/-- A significand that has an exponent in the layout, too, is shifted and packed. -/
theorem Narrow.shift_normal (hf : f.Narrow) (negative : Bool) {s : Nat} {scale : Int}
    (hlow : 2 ^ 52 ≤ s) (hhigh : s < 2 ^ 53) (hexponent : 1 ≤ scale + 52 + f.bias)
    (hscale : scale ≤ 971) :
    (do
      let shift ← int? ((52 : Nat) - f.fractionBits)
      f.packRounded? (f.withSign negative 0) (← roundShift? s shift) (scale + 52 + f.bias)) =
      some (f.withSign negative (f.roundScaled s scale)) := by
  have hbits := hf.fraction_le
  have hbias := hf.bias_le
  rw [bias_double] at hbias
  have hs : 0 < s := by omega
  have hshift : int? ((52 : Nat) - f.fractionBits) = some ((52 - f.fractionBits : Nat) : Int) := by
    rw [int?_of_mem (by omega) (by omega)]
    exact congrArg some (by omega)
  obtain ⟨j, hj⟩ := Int.eq_ofNat_of_zero_le (by omega : 0 ≤ scale + 52 + f.bias - 1)
  have hfit : scale + 52 + f.bias = ((j + 1 : Nat) : Int) := by omega
  obtain ⟨hn, hscaled⟩ := hf.scaled_normal hlow hhigh hfit
  rw [step hshift, step (roundShift?_eq _ hhigh), hfit,
    hf.packRounded?_eq negative hn hscaled.le (by omega), hscaled.roundScaled_eq hs]

/-- A significand below the smallest exponent of the layout is shifted to the smallest scale. -/
theorem Narrow.shift_tiny (hf : f.Narrow) (negative : Bool) {s : Nat} {scale : Int} (hs : 0 < s)
    (hsmall : s < 2 ^ 53) (hfull : scale = -1074 ∨ s.log2 = 52) (hscale : -1074 ≤ scale)
    (hexponent : scale + s.log2 + f.bias < 1) :
    (do
      let smallest ← int? ((← int? (1 - (← f.bias?))) - f.fractionBits)
      f.packSmall? (f.withSign negative 0) (← roundShift? s (← int? (smallest - scale)))) =
      some (f.withSign negative (f.roundScaled s scale)) := by
  have hbits := hf.fraction_le
  have hbias := hf.bias_le
  have hsmallest := hf.minScale_ge
  rw [bias_double] at hbias
  rw [minScale_double, minScale] at hsmallest
  have hone : int? (1 - (f.bias : Int)) = some (1 - (f.bias : Int)) :=
    int?_of_mem (by omega) (by omega)
  have hmin : int? (1 - (f.bias : Int) - f.fractionBits) = some f.minScale :=
    int?_of_mem (by omega) (by omega)
  have hlarger : 0 ≤ f.minScale - scale := by
    rw [minScale]
    omega
  obtain ⟨shift, hshift⟩ := Int.eq_ofNat_of_zero_le hlarger
  have hamount : int? (f.minScale - scale) = some (shift : Int) := by
    rw [hshift]
    rw [minScale] at hshift
    exact int?_of_mem (by omega) (by omega)
  have hbelow : s < f.fractions * 2 ^ shift := by
    rw [minScale] at hshift
    rw [fractions_eq, ← pow_add]
    calc s < 2 ^ (s.log2 + 1) := Nat.lt_log2_self
      _ ≤ 2 ^ (f.fractionBits + shift) := Nat.pow_le_pow_right two_pos (by omega)
  obtain ⟨hn, hround⟩ := hf.roundScaled_tiny hs (by omega : f.minScale = scale + shift) hbelow
  rw [step hf.bias?_eq, step hone, step hmin, step hamount, step (roundShift?_eq _ hsmall),
    hf.packSmall?_eq negative hn, hround]

/-- The significand of a double above zero is rounded and packed, and nothing overflows. -/
theorem Narrow.packScaled?_eq (hf : f.Narrow) (negative : Bool) {k s : Nat}
    (hparts : double.Parts k s) (hk : k ≤ 2045) (hs : 0 < s) :
    f.packScaled? (f.withSign negative 0) s (double.minScale + k) =
      some (f.withSign negative (f.roundScaled s (double.minScale + k))) := by
  have hbias := hf.bias_le
  have hsmallest := hf.minScale_ge
  have hsmall : s < 2 ^ 53 := hparts.small
  have hlog : s.log2 ≤ 52 := Nat.lt_succ_iff.mp ((Nat.log2_lt hs.ne').mpr hsmall)
  have hfull : k = 0 ∨ s.log2 = 52 := by
    refine hparts.full.imp_right fun h => ?_
    have hlow := (Nat.le_log2 hs.ne').mpr (show 2 ^ 52 ≤ s from h)
    omega
  rw [bias_double] at hbias
  rw [minScale_double, minScale] at hsmallest
  rw [minScale_double]
  generalize hscale : (-1074 : Int) + k = scale
  have htopBit : int? (63 - Words.leadingZeros s) = some (s.log2 : Int) := by
    rw [leadingZeros_eq hs (by omega)]
    exact int?_of_mem (by omega) (by omega)
  have hunbiased : int? (scale + s.log2) = some (scale + s.log2) :=
    int?_of_mem (by omega) (by omega)
  have hexponent : int? (scale + s.log2 + f.bias) = some (scale + s.log2 + f.bias) :=
    int?_of_mem (by omega) (by omega)
  unfold packScaled?
  rw [step htopBit, step hunbiased, step hf.bias?_eq, step hexponent]
  split
  · rename_i hnormal
    -- without an exponent of its own a double is too small to have one in the layout
    have hlog : s.log2 = 52 := by omega
    have hlow : 2 ^ 52 ≤ s := hlog ▸ Nat.log2_self_le hs.ne'
    rw [hlog] at hnormal ⊢
    exact hf.shift_normal negative hlow hsmall hnormal (by omega)
  · rename_i htiny
    exact hf.shift_tiny negative hs hsmall (by omega) (by omega) (by omega)

theorem Narrow.signWord_eq (hf : f.Narrow) (negative : Bool) :
    shiftLeft? negative.toNat ((f.fractionBits + f.exponentBits : Nat) : Int) =
      some (f.withSign negative 0) := by
  have hbits := hf.fractionBits_le
  have hsign := hf.signBit_lt
  have hpow : 2 ^ (f.fractionBits + f.exponentBits) = f.signBit := by
    rw [signBit_eq, Nat.add_comm]
  cases negative
  · rw [shiftLeft?_eq (by omega) (by simp)]
    simp [withSign]
  · rw [shiftLeft?_eq (by omega) (by rw [hpow]; simpa using hsign), hpow]
    simp [withSign]

theorem Narrow.quietNaN_eq (hf : f.Narrow) :
    f.infinity ||| 2 ^ (f.fractionBits - 1) = f.quietNaN := by
  have hpos := hf.fraction
  have hhalf : 2 ^ (f.fractionBits - 1) = f.fractions / 2 := by
    rw [fractions_eq, two_pow_eq_double hpos, Nat.mul_div_cancel_left _ two_pos]
  have hlt : f.fractions / 2 < 2 ^ f.fractionBits := by
    have := f.fractions_pos
    rw [← fractions_eq]
    omega
  rw [hhalf, quietNaN, infinity, Nat.mul_comm, fractions_eq,
    Nat.two_pow_add_eq_or_of_lt (by rwa [← fractions_eq])]

/-- The fields of a finite double. -/
theorem significandScale_double {m : Nat} (hm : m < double.infinity) :
    double.significandScale m = if m / 2 ^ 52 = 0 then (m % 2 ^ 52, -1074)
      else (2 ^ 52 + m % 2 ^ 52, -1074 + ((m / 2 ^ 52 : Nat) - 1 : Int)) := by
  rw [significandScale, magnitude_of_lt (hm.trans double.infinity_lt_signBit)]
  rfl

/-- The fields of a finite double are cut out of its word. -/
theorem Narrow.encodeFinite?_eq (hf : f.Narrow) (negative : Bool) {m : Nat} (hpos : 0 < m)
    (hm : m < double.infinity) :
    f.encodeFinite? (f.withSign negative 0) m = some (f.withSign negative
      (f.roundScaled (double.significandScale m).1 (double.significandScale m).2)) := by
  have hfractions : double.fractions = 2 ^ 52 := rfl
  have hinfinity : double.infinity = 2047 * 2 ^ 52 := rfl
  have hexponent : m / 2 ^ 52 < 2047 := Nat.div_lt_of_lt_mul (by omega)
  have hmod := Nat.mod_lt m (Nat.two_pow_pos 52)
  have hshift : shiftRight? m (52 : Nat) = some (m / 2 ^ 52) := shiftRight?_eq (by decide)
  have hfield : int? ((m / 2 ^ 52 &&& 0x7ff : Nat) : Int) = some ((m / 2 ^ 52 : Nat) : Int) := by
    rw [show 0x7ff = 2 ^ 11 - 1 from rfl, Nat.and_two_pow_sub_one_eq_mod,
      Nat.mod_eq_of_lt (by omega)]
    exact int?_of_mem (by omega) (by omega)
  have hone : shiftLeft? 1 (52 : Nat) = some (2 ^ 52) := shiftLeft?_one (by decide)
  have hmask : word? (((2 ^ 52 : Nat) : Int) - 1) = some (2 ^ 52 - 1) :=
    word?_pred (Nat.two_pow_pos _) (by decide)
  rw [Nat.cast_ofNat] at hshift hone
  unfold encodeFinite?
  rw [step hshift, step hfield, step hone, step hmask, Nat.and_two_pow_sub_one_eq_mod,
    significandScale_double hm]
  split
  · rename_i hzero
    have hzero : m / 2 ^ 52 = 0 := by exact_mod_cast hzero
    rw [if_pos hzero]
    have hparts : double.Parts 0 (m % 2 ^ 52) := ⟨by omega, Or.inl rfl⟩
    have hpacked := hf.packScaled?_eq negative hparts (by omega) (by omega)
    rw [minScale_double] at hpacked
    exact hpacked
  · rename_i hnormal
    have hnormal : m / 2 ^ 52 ≠ 0 := by exact_mod_cast hnormal
    rw [if_neg hnormal]
    have hor := Nat.two_pow_add_eq_or_of_lt hmod 1
    rw [Nat.mul_one, Nat.or_comm] at hor
    obtain ⟨k, hk⟩ := Nat.exists_eq_succ_of_ne_zero hnormal
    have hunbiased : int? (((m / 2 ^ 52 : Nat) : Int) - 1075) = some (-1074 + (k : Int)) := by
      rw [int?_of_mem (by omega) (by omega)]
      exact congrArg some (by omega)
    have hcast : ((m / 2 ^ 52 : Nat) : Int) - 1 = k := by omega
    have hparts : double.Parts k (2 ^ 52 + m % 2 ^ 52) := ⟨by omega, Or.inr (by omega)⟩
    rw [step hone, ← hor, step hunbiased, hcast]
    exact hf.packScaled?_eq negative hparts (by omega) (by omega)

/-- Every step of encoding succeeds, and together they give the nearest pattern. -/
theorem Narrow.encode?_eq (hf : f.Narrow) (x : Double) : f.encode? x = some (f.encode x) := by
  have hbits := hf.fractionBits_le
  have hfraction := hf.fraction
  have hexponents := hf.four_le_exponents
  have hsignBit := hf.signBit_lt
  have hwidth : count? ((f.fractionBits : Int) + f.exponentBits) =
      some ((f.fractionBits + f.exponentBits : Nat) : Int) := count?_of_mem (by omega) (by omega)
  unfold encode? encode
  rw [step hwidth, step (hf.signWord_eq x.isNegative)]
  split
  · have htop : shiftLeft? (f.exponents - 1) f.fractionBits = some f.infinity := by
      have hlt : (f.exponents - 1) * 2 ^ f.fractionBits < 2 ^ 64 :=
        f.infinity_lt_signBit.trans hsignBit
      exact shiftLeft?_eq (by omega) hlt
    have hcount := count?_pred hfraction (by omega)
    rw [step hf.topExponent?_eq, step htop, step hcount, step (shiftLeft?_one (by omega)),
      hf.quietNaN_eq]
    rfl
  · rename_i hnan
    split
    · rw [step hf.topExponent?_eq, hf.pack?_eq _ (by omega) f.fractions_pos, ← infinity,
        Nat.add_zero]
    · rename_i hinfinite
      have hfinite : x.magnitude < double.infinity := by
        simp only [Double.isNaN, Double.isInfinite, decide_eq_true_eq] at hnan hinfinite
        omega
      have hfields : x.significandScale = double.significandScale x.magnitude :=
        (significandScale_magnitude _).symm
      split
      · rename_i hzero
        rw [hfields, hzero]
        rfl
      · rename_i hpos
        rw [hf.encodeFinite?_eq _ (Nat.pos_of_ne_zero hpos) hfinite, hfields]

/-! ## The law -/

/-- Encoding a double is right in every layout whose fields are no wider than a double's. No step of
it overflows. Every NaN becomes the quiet one, an infinity that of its sign, and a finite number the
nearest magnitude with its sign. -/
theorem encoding_takes_the_nearest_pattern (hf : f.Narrow) (x : Double) :
    f.encode? x = some (f.encode x) ∧
      (x.isNaN = true → f.encode x = f.quietNaN) ∧
      (x.isInfinite = true → f.encode x = f.withSign x.isNegative f.infinity) ∧
      (x.isNaN = false → x.isInfinite = false → ∃ m,
        f.encode x = f.withSign x.isNegative m ∧ f.Rounded (double.valueOf x.magnitude) m) := by
  refine ⟨hf.encode?_eq x, encode_nan, fun hinfinite => ?_, fun hnan hinfinite => ?_⟩
  · have hnan : x.isNaN = false := by
      have hm : x.magnitude = double.infinity := by simpa [Double.isInfinite] using hinfinite
      simp [Double.isNaN, hm]
    simp only [encode, hnan, hinfinite, Bool.false_eq_true, if_false, if_true]
  · have hvalue : double.valueOf x.magnitude =
        x.significandScale.1 * 2 ^ x.significandScale.2 := by
      have hsign : x.magnitude < double.signBit := Nat.mod_lt _ double.signBit_pos
      rw [valueOf_eq_rational hsign]
      exact rational_magnitude x.pattern
    refine ⟨f.roundScaled x.significandScale.1 x.significandScale.2, ?_, ?_⟩
    · simp only [encode, hnan, hinfinite, Bool.false_eq_true, if_false]
    · rw [hvalue]
      exact rounded_roundScaled hf.toProper _ _

/-- Half a unit past the largest number of half precision there is infinity. -/
theorem an_encoded_number_overflows :
    let x : Double := ⟨0x40effe0000000000⟩
    semi.Narrow ∧ x.isNaN = false ∧ x.isInfinite = false ∧ semi.encode? x = some 0x7c00 ∧
      ∃ m, semi.encode x = semi.withSign x.isNegative m ∧
        semi.Rounded (double.valueOf x.magnitude) m := by
  intro x
  have hnan : x.isNaN = false := by decide
  have hinfinite : x.isInfinite = false := by decide
  have hencode : semi.encode x = 0x7c00 := by decide +kernel
  obtain ⟨hsteps, -, -, hfinite⟩ := encoding_takes_the_nearest_pattern narrow_semi x
  exact ⟨narrow_semi, hnan, hinfinite, by rw [hsteps, hencode], hfinite hnan hinfinite⟩

end FloatLayout

end ZigbeeGateway
