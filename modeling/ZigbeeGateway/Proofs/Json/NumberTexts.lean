-- What the numbers of JSON text mean: whole numbers of 64 bits and finite doubles come back, a
-- double by the same bits.
import ZigbeeGateway.Json.Write
import ZigbeeGateway.Proofs.Json.Numbers
import ZigbeeGateway.Proofs.Number.Decimal
namespace ZigbeeGateway

open Numeral

/-! ## Runs of digits -/

namespace Numeral

theorem foldl_replicate_zero (base count n : Nat) :
    (List.replicate count 0).foldl (base * · + ·) n = n * base ^ count := by
  induction count generalizing n with
  | zero => simp
  | succ count ih =>
    rw [List.replicate_succ, List.foldl_cons, ih, Nat.add_zero, Nat.pow_succ']
    ac_rfl

end Numeral

namespace Json.Number

theorem natural_map {ds : List Nat} (h : ∀ d ∈ ds, d < 10) :
    natural (ds.map digitChar) = ds.foldl (10 * · + ·) 0 := by
  rcases ds with _ | ⟨d, ds⟩
  · rfl
  · rw [natural, ofDigits?, foldlM_addDigit (by decide) _ h]
    rfl

theorem natural_decimal (n : Nat) : natural (decimal n) = n := by
  rw [decimal, natural_map (digits_lt (by decide) n), foldl_digits]

theorem run_decimal (n : Nat) : Run (decimal n) := ⟨decimal_ne_nil n, isDigit_decimal n⟩

/-- A number above zero has no zero in front. -/
theorem head?_decimal {n : Nat} (h : 0 < n) : (decimal n).head? ≠ some '0' := by
  have hne := head?_digits (by decide : 2 ≤ 10) h
  rw [decimal, List.head?_map]
  rcases hd : (digits 10 n).head? with _ | d
  · rintro ⟨⟩
  · rw [Option.map_some, Ne, Option.some.injEq,
      digitChar_eq_zero (digits_lt (by decide) n d (List.mem_of_mem_head? hd))]
    rintro rfl
    exact hne hd

theorem lead_decimal (n : Nat) : decimal n = ['0'] ∨ (decimal n).head? ≠ some '0' := by
  rcases Nat.eq_zero_or_pos n with rfl | hn
  · exact Or.inl (by rw [decimal, digits, dif_pos (Or.inl (by decide))]; rfl)
  · exact Or.inr (head?_decimal hn)

/-! ## Whole numbers -/

/-- A whole number by its parts. -/
def ofInt (n : Int) : Number := ⟨decide (n < 0), decimal n.natAbs, none, none⟩

theorem text_ofInt (n : Int) : (ofInt n).text = signedDecimal n := by
  simp only [text, ofInt, magnitudeText, fractionText, exponentText, signedDecimal,
    decide_eq_true_eq, List.append_nil]

theorem legal_ofInt (n : Int) : (ofInt n).Legal where
  whole := run_decimal _
  lead := lead_decimal _
  fraction := by rintro ds ⟨⟩
  exponent := by rintro e ⟨⟩

theorem toValue?_ofInt (n : Int64) : (ofInt n.toInt).toValue? = some (.int n) := by
  have hlow := n.le_toInt
  have hhigh := n.toInt_lt
  by_cases hneg : n.toInt < 0
  · have hrange : 0 < n.toInt.natAbs ∧ n.toInt.natAbs ≤ 0x8000000000000000 := by omega
    have hback : -(n.toInt.natAbs : Int) = n.toInt := by omega
    simp only [toValue?, ofInt, hneg, decide_true, natural_decimal, Option.isNone_none, if_true,
      hrange, and_self, hback, Value.ofInt, Int64.ofInt_toInt]
  · have hrange : n.toInt.natAbs < UInt64.size := Nat.lt_of_lt_of_le (by omega : _ < 2 ^ 63) (by decide)
    have hsmall : n.toInt.natAbs < 0x8000000000000000 := by omega
    have hback : Int64.ofNat n.toInt.natAbs = n := by
      rw [← Int64.ofInt_eq_ofNat, show (n.toInt.natAbs : Int) = n.toInt by omega, Int64.ofInt_toInt]
    simp only [toValue?, ofInt, hneg, decide_false, natural_decimal, Option.isNone_none, and_self,
      Bool.false_eq_true, if_false, hrange, if_true, Value.ofNat, hsmall, hback]

theorem toValue?_ofNat (n : UInt64) : (ofInt n.toNat).toValue? = some (.ofNat n.toNat) := by
  have hneg : ¬ ((n.toNat : Int) < 0) := by omega
  have hrange : n.toNat < UInt64.size := n.toNat_lt
  simp only [toValue?, ofInt, hneg, decide_false, Int.natAbs_natCast, natural_decimal,
    Option.isNone_none, and_self, Bool.false_eq_true, if_false, hrange, if_true]

/-! ## Decimals -/

/-- The number is written with a point or an exponent and stands for a rational, up to its sign. -/
structure Stands (n : Number) (r : ℚ) : Prop where
  legal : n.Legal
  value : (natural (n.whole ++ n.fraction.getD []) : ℚ) *
    10 ^ (n.exponentValue - (n.fraction.getD []).length) = r
  notWhole : n.fraction ≠ none ∨ n.exponent ≠ none

theorem digit_zero : ('0' : Char) = digitChar 0 := rfl

theorem isDigit_zeros (count : Nat) : ∀ c ∈ List.replicate count '0', c.isDigit = true := by
  intro c hc
  rw [(List.mem_replicate.mp hc).2]
  decide

/-- Zeros around the digits of a number. -/
theorem natural_zeros (before n after : Nat) :
    natural (List.replicate before '0' ++ decimal n ++ List.replicate after '0') =
      n * 10 ^ after := by
  have hmap : List.replicate before '0' ++ decimal n ++ List.replicate after '0' =
      (List.replicate before 0 ++ digits 10 n ++ List.replicate after 0).map digitChar := by
    rw [List.map_append, List.map_append, List.map_replicate, List.map_replicate, ← digit_zero]
    rfl
  have hdigits : ∀ d ∈ List.replicate before 0 ++ digits 10 n ++ List.replicate after 0,
      d < 10 := by
    intro d hd
    rw [List.mem_append, List.mem_append] at hd
    rcases hd with (hd | hd) | hd
    · rw [(List.mem_replicate.mp hd).2]
      decide
    · exact digits_lt (by decide) n d hd
    · rw [(List.mem_replicate.mp hd).2]
      decide
  rw [hmap, natural_map hdigits, List.foldl_append, List.foldl_append,
    foldl_replicate_zero 10 before 0, Nat.zero_mul, foldl_digits, foldl_replicate_zero]

/-- Digits behind a point and zeros. -/
theorem stands_small {digits zeros : Nat} {exponent : Int}
    (h : exponent = -((zeros : Int) + (decimal digits).length)) :
    Stands ⟨false, ['0'], some (List.replicate zeros '0' ++ decimal digits), none⟩
      (Decimal.rational ⟨digits, exponent⟩) where
  legal := by
    refine ⟨⟨by simp, isDigit_zeros 1⟩, Or.inl rfl, ?_, by rintro e ⟨⟩⟩
    rintro ds ⟨⟩
    refine ⟨by simp [decimal_ne_nil], fun c hc => ?_⟩
    rcases List.mem_append.mp hc with hc | hc
    · exact isDigit_zeros zeros c hc
    · exact isDigit_decimal digits c hc
  value := by
    have hnatural := natural_zeros (zeros + 1) digits 0
    rw [List.replicate_succ, List.replicate_zero, List.append_nil, Nat.pow_zero, Nat.mul_one] at hnatural
    have hdigits : natural (['0'] ++ (some (List.replicate zeros '0' ++ decimal digits)).getD []) =
        digits := hnatural
    have hexponent : exponentValue ⟨false, ['0'], some (List.replicate zeros '0' ++ decimal digits),
        none⟩ - ((some (List.replicate zeros '0' ++ decimal digits)).getD []).length = exponent := by
      simp only [exponentValue, Option.getD_some, List.length_append, List.length_replicate]
      omega
    simp only
    rw [hdigits, hexponent]
    rfl
  notWhole := Or.inl (by simp)

/-- Digits and zeros before a point. -/
theorem stands_large {digits zeros : Nat} (h : 0 < digits ∨ zeros = 0) :
    Stands ⟨false, decimal digits ++ List.replicate zeros '0', some ['0'], none⟩
      (Decimal.rational ⟨digits, zeros⟩) where
  legal := by
    refine ⟨⟨by simp [decimal_ne_nil], fun c hc => ?_⟩, ?_, ?_, by rintro e ⟨⟩⟩
    · rcases List.mem_append.mp hc with hc | hc
      · exact isDigit_decimal digits c hc
      · exact isDigit_zeros zeros c hc
    · rcases h with h | rfl
      · refine Or.inr ?_
        have hhead := head?_decimal h
        obtain ⟨c, cs, hc⟩ := List.exists_cons_of_ne_nil (decimal_ne_nil digits)
        rw [hc] at hhead ⊢
        exact hhead
      · rw [List.replicate_zero, List.append_nil]
        exact lead_decimal digits
    · rintro ds ⟨⟩
      exact ⟨by simp, isDigit_zeros 1⟩
  value := by
    have hnatural := natural_zeros 0 digits (zeros + 1)
    rw [List.replicate_zero, List.nil_append, List.replicate_succ', ← List.append_assoc] at hnatural
    simp only [exponentValue, Option.getD_some, hnatural, Decimal.rational]
    push_cast
    rw [mul_assoc, ← zpow_natCast, ← zpow_add₀ (by norm_num)]
    congr 2
    push_cast
    simp
  notWhole := Or.inl (by simp)

/-- Digits with a point between them. -/
theorem stands_split {digits whole : Nat} (hdigits : 0 < digits) (hpos : 0 < whole)
    (hlt : whole < (decimal digits).length) :
    Stands ⟨false, (decimal digits).take whole, some ((decimal digits).drop whole), none⟩
      (Decimal.rational ⟨digits, (whole : Int) - (decimal digits).length⟩) where
  legal := by
    refine ⟨⟨?_, fun c hc => ?_⟩, Or.inr ?_, ?_, by rintro e ⟨⟩⟩
    · rw [← List.length_pos_iff, List.length_take]
      omega
    · exact isDigit_decimal digits c (List.mem_of_mem_take hc)
    · rw [List.head?_take, if_neg hpos.ne']
      exact head?_decimal hdigits
    · rintro ds ⟨⟩
      refine ⟨?_, fun c hc => isDigit_decimal digits c (List.mem_of_mem_drop hc)⟩
      rw [← List.length_pos_iff, List.length_drop]
      omega
  value := by
    simp only [Option.getD_some, List.take_append_drop, natural_decimal, exponentValue,
      List.length_drop, Decimal.rational]
    congr 2
    omega
  notWhole := Or.inl (by simp)

/-- One digit before the point, and an exponent. -/
theorem stands_scientific (digits : Nat) (top : Int) :
    Stands ⟨false, (decimal digits).take 1,
        if ((decimal digits).drop 1).isEmpty then none else some ((decimal digits).drop 1),
        some (decide (top < 0), decimal top.natAbs)⟩
      (Decimal.rational ⟨digits, top - ((decimal digits).length - 1)⟩) := by
  obtain ⟨c, cs, hc⟩ := List.exists_cons_of_ne_nil (decimal_ne_nil digits)
  have hall := isDigit_decimal digits
  have hnatural := natural_decimal digits
  rw [hc] at hall hnatural ⊢
  have htop : (if decide (top < 0) = true then -(natural (decimal top.natAbs) : Int)
      else natural (decimal top.natAbs)) = top := by
    simp only [natural_decimal, decide_eq_true_eq]
    split <;> omega
  refine ⟨⟨⟨by simp, ?_⟩, ?_, ?_, ?_⟩, ?_, Or.inr (by simp)⟩
  · simpa using hall c List.mem_cons_self
  · by_cases hzero : c = '0'
    · exact Or.inl (by simp [hzero])
    · exact Or.inr (by simpa using hzero)
  · intro ds hds
    rcases cs with _ | ⟨c', cs⟩
    · cases hds
    · cases hds
      exact ⟨by simp, fun d hd => hall d (List.mem_cons_of_mem _ hd)⟩
  · rintro e ⟨⟩
    exact run_decimal _
  · have hfraction : (if ((c :: cs).drop 1).isEmpty then none else some ((c :: cs).drop 1)).getD [] =
        cs := by
      rcases cs with _ | ⟨c', cs⟩ <;> rfl
    simp only [exponentValue, hfraction, htop, List.take_succ_cons, List.take_zero,
      List.singleton_append, hnatural, List.length_cons, Decimal.rational]
    congr 2
    push_cast
    ring

/-- In every format a decimal is written as a number that stands for it. -/
theorem exists_number (format : DecimalFormat) {d : Decimal}
    (hd : 0 < d.digits ∨ d = ⟨0, 0⟩) :
    ∃ n : Number, n.negative = false ∧ n.magnitudeText = format.text d ∧ n.Stands d.rational := by
  obtain ⟨digits, exponent⟩ := d
  have hlen := List.length_pos_iff.mpr (decimal_ne_nil digits)
  simp only [DecimalFormat.text]
  generalize htop : ((decimal digits).length : Int) - 1 + exponent = top
  by_cases hposition : format.lowestPositional ≤ top ∧ top ≤ format.highestPositional
  · rw [if_pos hposition]
    by_cases hneg : top < 0
    · rw [if_pos hneg]
      have hexponent : exponent = -(((-top - 1).toNat : Int) + (decimal digits).length) := by omega
      refine ⟨_, rfl, ?_, stands_small hexponent⟩
      simp [magnitudeText, fractionText, exponentText]
    · rw [if_neg hneg]
      by_cases hwhole : (decimal digits).length ≤ top.toNat + 1
      · have hexponent : exponent = ((top.toNat + 1 - (decimal digits).length : Nat) : Int) := by
          omega
        have hzeros : 0 < digits ∨ top.toNat + 1 - (decimal digits).length = 0 := by
          rcases hd with hd | hd
          · exact Or.inl hd
          · cases hd
            exact Or.inr (by omega)
        rw [hexponent, if_pos hwhole, List.take_of_length_le hwhole]
        refine ⟨_, rfl, ?_, stands_large hzeros⟩
        simp [magnitudeText, fractionText, exponentText]
      · have hexponent : exponent = ((top.toNat + 1 : Nat) : Int) - (decimal digits).length := by
          omega
        have hdigits : 0 < digits := by
          rcases hd with hd | hd
          · exact hd
          · cases hd
            omega
        have hnone : top.toNat + 1 - (decimal digits).length = 0 := by omega
        rw [hexponent, if_neg hwhole, hnone]
        refine ⟨_, rfl, ?_, stands_split hdigits (Nat.succ_pos _) (by omega)⟩
        simp [magnitudeText, fractionText, exponentText]
  · rw [if_neg hposition]
    have hexponent : exponent = top - ((decimal digits).length - 1) := by omega
    rw [hexponent]
    refine ⟨_, rfl, ?_, stands_scientific digits top⟩
    simp only [magnitudeText, exponentText, decide_eq_true_eq]
    split
    · simp [fractionText]
    · simp [fractionText]

/-- The text of a finite double is a number that means this double. -/
theorem exists_number_of_double {x : Double} (hnan : x.isNaN = false)
    (hinfinite : x.isInfinite = false) :
    ∃ n : Number, n.text = x.text .json ∧ n.Legal ∧ n.toValue? = some (.float x) := by
  have hx : x.magnitude < FloatLayout.double.infinity := by
    rw [Double.isNaN, decide_eq_false_iff_not] at hnan
    rw [Double.isInfinite, decide_eq_false_iff_not] at hinfinite
    omega
  obtain ⟨⟨sign, whole, fraction, exponent⟩, hsign, htext, hstands⟩ :=
    exists_number .json (Double.shortest_digits hx)
  obtain ⟨hlegal, hvalue, hnotWhole⟩ := hstands
  refine ⟨⟨x.isNegative, whole, fraction, exponent⟩, ?_, ⟨hlegal.whole, hlegal.lead,
    hlegal.fraction, hlegal.exponent⟩, ?_⟩
  · rw [text, Double.text, ← htext]
    rfl
  · have hdouble : Double.ofDecimal x.isNegative (natural (whole ++ fraction.getD []))
        (exponentValue ⟨x.isNegative, whole, fraction, exponent⟩ - (fraction.getD []).length) = x :=
      Double.ofDecimal_shortest hx hvalue
    have hnot : ¬ (fraction.isNone = true ∧ exponent.isNone = true ∧
        (if x.isNegative = true then 0 < natural whole ∧ natural whole ≤ 0x8000000000000000
          else natural whole < UInt64.size)) := by
      rintro ⟨hf, he, -⟩
      rcases hnotWhole with h | h
      · exact h (Option.isNone_iff_eq_none.mp hf)
      · exact h (Option.isNone_iff_eq_none.mp he)
    simp only [toValue?, if_neg hnot, toDouble?, hdouble, hinfinite, Bool.false_eq_true, if_false,
      Option.map_some]

end Json.Number

end ZigbeeGateway
