-- Digits as numbers: how many digits a number has, how large a number a run of digits can
-- stand for, and addresses in upper-case hex.
import Mathlib.Algebra.Group.Nat.Defs
import ZigbeeGateway.Text.Cut
import ZigbeeGateway.Text.Numeral
namespace ZigbeeGateway.Numeral

variable {base : Nat}

/-! ## How many digits -/

theorem lt_pow_length_digits (hbase : 2 ≤ base) (n : Nat) : n < base ^ (digits base n).length := by
  fun_induction digits base n with
  | case1 n h =>
    rw [List.length_singleton, Nat.pow_one]
    omega
  | case2 n h ih =>
    rw [List.length_append, List.length_singleton, Nat.pow_succ]
    exact (Nat.div_lt_iff_lt_mul (by omega)).mp ih

theorem pow_length_digits_le {n : Nat} (hbase : 2 ≤ base) (hn : 0 < n) :
    base ^ ((digits base n).length - 1) ≤ n := by
  fun_induction digits base n with
  | case1 n h => exact hn
  | case2 n h ih =>
    have hlen : 0 < (digits base (n / base)).length :=
      List.length_pos_iff.mpr (digits_ne_nil base (n / base))
    have hdiv : 0 < n / base := Nat.div_pos (by omega) (by omega)
    have hpow : base ^ ((digits base (n / base)).length - 1) * base ≤ n :=
      (Nat.le_div_iff_mul_le (by omega)).mp (ih hdiv)
    rw [← Nat.pow_succ] at hpow
    rw [List.length_append, List.length_singleton]
    exact Nat.le_trans (Nat.pow_le_pow_right (by omega) (by omega)) hpow

theorem length_digits_le {n width : Nat} (hbase : 2 ≤ base) (hwidth : 0 < width)
    (h : n < base ^ width) : (digits base n).length ≤ width := by
  rcases Nat.eq_zero_or_pos n with rfl | hn
  · rw [digits, dif_pos (Or.inl (by omega))]
    exact hwidth
  · have hlt := Nat.lt_of_le_of_lt (pow_length_digits_le hbase hn) h
    have := (Nat.pow_lt_pow_iff_right (by omega)).mp hlt
    omega

/-! ## Reading digits -/

/-- Digits read back whatever characters they are written with. -/
theorem foldlM_addDigit_map {char : Nat → Char} {ds : List Nat}
    (h : ∀ d ∈ ds, digit? base (char d) = some d) (n : Nat) :
    (ds.map char).foldlM (addDigit base) n = some (ds.foldl (base * · + ·) n) := by
  induction ds generalizing n with
  | nil => rfl
  | cons d ds ih =>
    simp [addDigit, h d List.mem_cons_self, ih fun d hd => h d (List.mem_cons_of_mem _ hd)]

theorem digit?_lt {c : Char} {d : Nat} (h : digit? base c = some d) : d < base := by
  obtain ⟨hlt, hd⟩ := Option.ite_none_right_eq_some.mp h
  exact Option.some.inj hd ▸ hlt

/-- Digits are ASCII letters and digits, none of which comes behind the small z. -/
theorem toNat_lt_of_digit? {d : Nat} {c : Char} (h : digit? base c = some d) : c.toNat < 123 := by
  obtain ⟨hlt, -⟩ := Option.ite_none_right_eq_some.mp h
  split at hlt
  next hc => exact Nat.lt_of_le_of_lt hc.2 (by decide)
  next =>
    split at hlt
    next hc => exact Nat.lt_of_le_of_lt hc.2 (by decide)
    next =>
      split at hlt
      next hc => exact Nat.lt_of_le_of_lt hc.2 (by decide)
      next => exact absurd hlt (Nat.lt_irrefl base)

theorem foldlM_addDigit_lt {cs : List Char} {a n : Nat}
    (h : cs.foldlM (addDigit base) a = some n) : n < (a + 1) * base ^ cs.length := by
  induction cs generalizing a with
  | nil =>
    cases h
    simp
  | cons c cs ih =>
    obtain ⟨b, hb, hn⟩ := Option.bind_eq_some_iff.mp h
    obtain ⟨d, hd, rfl⟩ := Option.map_eq_some_iff.mp hb
    refine Nat.lt_of_lt_of_le (ih hn) ?_
    have hle : base * a + d + 1 ≤ (a + 1) * base := by
      have := digit?_lt hd
      rw [Nat.succ_mul, Nat.mul_comm a]
      omega
    rw [List.length_cons, Nat.pow_succ, Nat.mul_comm (base ^ _), ← Nat.mul_assoc]
    exact Nat.mul_le_mul_right _ hle

theorem ofDigits?_lt {cs : List Char} {n : Nat} (h : ofDigits? base cs = some n) :
    n < base ^ cs.length := by
  rw [ofDigits?] at h
  split at h
  · cases h
  · simpa using foldlM_addDigit_lt h

theorem isSome_of_foldlM_addDigit {cs : List Char} {a n : Nat}
    (h : cs.foldlM (addDigit base) a = some n) : ∀ c ∈ cs, (digit? base c).isSome := by
  induction cs generalizing a with
  | nil => exact fun c hc => absurd hc List.not_mem_nil
  | cons c cs ih =>
    obtain ⟨b, hb, hn⟩ := Option.bind_eq_some_iff.mp h
    obtain ⟨d, hd, -⟩ := Option.map_eq_some_iff.mp hb
    exact List.forall_mem_cons.mpr ⟨Option.isSome_of_eq_some hd, ih hn⟩

/-- Nothing but digits is read as a number. -/
theorem isSome_of_ofDigits? {cs : List Char} {n : Nat} (h : ofDigits? base cs = some n) :
    ∀ c ∈ cs, (digit? base c).isSome := by
  rw [ofDigits?] at h
  split at h
  · cases h
  · exact isSome_of_foldlM_addDigit h

/-! ## Upper-case hex -/

theorem digit?_toUpper {d : Nat} (h : d < 16) : digit? 16 (digitChar d).toUpper = some d := by
  have hall : ∀ d < 16, digit? 16 (digitChar d).toUpper = some d := by decide
  exact hall d h

theorem toUpper_ne_x {d : Nat} (h : d < 16) : (digitChar d).toUpper ≠ 'x' := by
  have hall : ∀ d < 16, (digitChar d).toUpper ≠ 'x' := by decide
  exact hall d h

/-- A number in hex by its digits, those in front that are zero included. -/
def padded (width n : Nat) : List Nat :=
  List.replicate (width - (digits 16 n).length) 0 ++ digits 16 n

theorem padded_lt {width n d : Nat} (h : d ∈ padded width n) : d < 16 := by
  rcases List.mem_append.mp h with h | h
  · rw [(List.mem_replicate.mp h).2]
    decide
  · exact digits_lt (by decide) n d h

theorem upperHex_eq (width n : Nat) :
    upperHex width n = (padded width n).map fun d => (digitChar d).toUpper := by
  have hzero : ('0' : Char) = digitChar 0 := rfl
  simp only [upperHex, hex, padded, List.length_map, hzero, List.map_append, List.map_replicate,
    List.map_map]
  rfl

theorem length_upperHex {width n : Nat} (hwidth : 0 < width) (h : n < 16 ^ width) :
    (upperHex width n).length = width := by
  have := length_digits_le (by decide) hwidth h
  rw [upperHex_eq, List.length_map, padded, List.length_append, List.length_replicate]
  omega

theorem ofDigits?_upperHex (width n : Nat) : ofDigits? 16 (upperHex width n) = some n := by
  have hzeros : ∀ k, (List.replicate k 0).foldl (16 * · + ·) 0 = 0 := by
    intro k
    induction k with
    | zero => rfl
    | succ k ih => simpa [List.replicate_succ] using ih
  have hne : (upperHex width n).isEmpty = false := by
    simp [upperHex_eq, padded, digits_ne_nil]
  have hread : ((padded width n).map fun d => (digitChar d).toUpper).foldlM (addDigit 16) 0 =
      some ((padded width n).foldl (16 * · + ·) 0) :=
    foldlM_addDigit_map (fun d hd => digit?_toUpper (padded_lt hd)) 0
  rw [ofDigits?, hne, upperHex_eq, if_neg Bool.false_ne_true, hread, padded, List.foldl_append,
    hzeros, foldl_digits]

/-- A number in upper-case hex does not start with a lead. -/
theorem after?_upperHex (width n : Nat) : Cut.after? ['0', 'x'] (upperHex width n) = none := by
  rcases ha : Cut.after? ['0', 'x'] (upperHex width n) with _ | rest
  · rfl
  · have hx : 'x' ∈ upperHex width n := by
      rw [(Cut.after?_eq_some_iff ..).mp ha]
      simp
    rw [upperHex_eq, List.mem_map] at hx
    obtain ⟨d, hd, he⟩ := hx
    exact absurd he (toUpper_ne_x (padded_lt hd))

end ZigbeeGateway.Numeral
