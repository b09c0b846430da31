-- Numbers in JSON text. A number that is written by its parts reads back as these parts, so the
-- texts of whole numbers and of doubles only have to be taken apart once.
import ZigbeeGateway.Json.Read
import ZigbeeGateway.Proofs.Text.Digits
namespace ZigbeeGateway

/-! ## Digits in decimal -/

namespace Numeral

theorem isDigit_digitChar {d : Nat} (h : d < 10) : (digitChar d).isDigit = true := by
  have hall : ∀ d < 10, (digitChar d).isDigit = true := by decide
  exact hall d h

theorem digitChar_eq_zero {d : Nat} (h : d < 10) : digitChar d = '0' ↔ d = 0 := by
  have hall : ∀ d < 10, digitChar d = '0' ↔ d = 0 := by decide
  exact hall d h

theorem isDigit_decimal (n : Nat) : ∀ c ∈ decimal n, c.isDigit = true := by
  intro c hc
  obtain ⟨d, hd, rfl⟩ := List.mem_map.mp hc
  exact isDigit_digitChar (digits_lt (by decide) n d hd)

theorem decimal_ne_nil (n : Nat) : decimal n ≠ [] := by simp [decimal, digits_ne_nil]

/-- A number above zero does not start with the digit 0. -/
theorem head?_digits {base n : Nat} (hbase : 2 ≤ base) (hn : 0 < n) :
    (digits base n).head? ≠ some 0 := by
  fun_induction digits base n with
  | case1 n h =>
    rw [List.head?_cons, Ne, Option.some.injEq]
    omega
  | case2 n h ih =>
    obtain ⟨d, ds, hds⟩ := List.exists_cons_of_ne_nil (digits_ne_nil base (n / base))
    rw [hds] at ih ⊢
    exact ih (Nat.div_pos (by omega) (by omega))

end Numeral

namespace Json

open Numeral

/-! ## Where a number ends -/

/-- The text is at its end, or a part of JSON comes that cannot continue a value. -/
def Ends (rest : List Char) : Prop := ∀ c ∈ rest.head?, c = ',' ∨ c = ']' ∨ c = '\x7d'

/-- No digit comes next. -/
def NoDigit (rest : List Char) : Prop := ∀ c ∈ rest.head?, c.isDigit = false

theorem Ends.noDigit {rest : List Char} (h : Ends rest) : NoDigit rest := by
  intro c hc
  rcases h c hc with rfl | rfl | rfl <;> decide

theorem digitsOf_append {ds rest : List Char} (hds : ∀ c ∈ ds, c.isDigit = true)
    (hrest : NoDigit rest) : digitsOf (ds ++ rest) = (ds, rest) := by
  have htake : rest.takeWhile Char.isDigit = [] ∧ rest.dropWhile Char.isDigit = rest := by
    rcases rest with _ | ⟨c, rest⟩
    · exact ⟨rfl, rfl⟩
    · have hc : c.isDigit = false := hrest c rfl
      simp [hc]
  rw [digitsOf, List.takeWhile_append_of_pos hds, List.dropWhile_append_of_pos hds, htake.1,
    htake.2, List.append_nil]

/-! ## A number by its parts -/

namespace Number

/-- A fraction as it is written. -/
def fractionText : Option (List Char) → List Char
  | none => []
  | some ds => '.' :: ds

/-- An exponent as it is written, always with a sign. -/
def exponentText : Option (Bool × List Char) → List Char
  | none => []
  | some (negative, ds) => 'e' :: (if negative then '-' else '+') :: ds

/-- A number as it is written, without its sign. -/
def magnitudeText (n : Number) : List Char :=
  n.whole ++ (fractionText n.fraction ++ exponentText n.exponent)

def text (n : Number) : List Char :=
  if n.negative then '-' :: n.magnitudeText else n.magnitudeText

/-- A run of digits. -/
def Run (ds : List Char) : Prop := ds ≠ [] ∧ ∀ c ∈ ds, c.isDigit = true

/-- Runs of digits where the grammar wants them, and no needless zero in front. -/
structure Legal (n : Number) : Prop where
  whole : Run n.whole
  lead : n.whole = ['0'] ∨ n.whole.head? ≠ some '0'
  fraction : ∀ ds, n.fraction = some ds → Run ds
  exponent : ∀ e, n.exponent = some e → Run e.2

theorem wholePart?_append {ds rest : List Char} (hds : Run ds)
    (hlead : ds = ['0'] ∨ ds.head? ≠ some '0') (hrest : NoDigit rest) :
    wholePart? (ds ++ rest) = some (ds, rest) := by
  rw [wholePart?, digitsOf_append hds.2 hrest]
  split
  · rename_i heq
    exact absurd (Prod.mk.inj heq).1 hds.1
  · rename_i heq
    obtain ⟨rfl, -⟩ := Prod.mk.inj heq
    simp at hlead
  · rename_i heq
    cases heq
    rfl

theorem noDigit_exponentText (exponent : Option (Bool × List Char)) {rest : List Char}
    (h : Ends rest) : NoDigit (exponentText exponent ++ rest) := by
  rcases exponent with _ | ⟨negative, ds⟩
  · exact h.noDigit
  · rintro c ⟨⟩
    decide

theorem noDigit_fractionText (fraction : Option (List Char)) {rest : List Char}
    (h : NoDigit rest) : NoDigit (fractionText fraction ++ rest) := by
  rcases fraction with _ | ds
  · exact h
  · rintro c ⟨⟩
    decide

theorem fractionPart?_append {fraction : Option (List Char)} {rest : List Char}
    (hfraction : ∀ ds, fraction = some ds → Run ds) (hrest : NoDigit rest)
    (hpoint : rest.head? ≠ some '.') :
    fractionPart? (fractionText fraction ++ rest) = some (fraction, rest) := by
  rcases fraction with _ | ds
  · rw [fractionText, List.nil_append, fractionPart?]
    rintro cs rfl
    exact hpoint rfl
  · obtain ⟨hne, hdigits⟩ := hfraction ds rfl
    rw [fractionText, List.cons_append, fractionPart?, digitsOf_append hdigits hrest]
    split
    · rename_i heq
      exact absurd (Prod.mk.inj heq).1 hne
    · rename_i heq
      cases heq
      rfl

theorem exponentPart?_append {exponent : Option (Bool × List Char)} {rest : List Char}
    (hexponent : ∀ e, exponent = some e → Run e.2) (hrest : Ends rest) :
    exponentPart? (exponentText exponent ++ rest) = some (exponent, rest) := by
  rcases exponent with _ | ⟨negative, ds⟩
  · rcases rest with _ | ⟨c, rest⟩
    · rfl
    · have hmark : ¬ (c = 'e' ∨ c = 'E') := by
        rcases hrest c rfl with rfl | rfl | rfl <;> decide
      rw [exponentText, List.nil_append, exponentPart?, if_neg hmark]
  · obtain ⟨hne, hdigits⟩ := hexponent _ rfl
    have hsign : sign ((if negative then '-' else '+') :: (ds ++ rest)) = (negative, ds ++ rest) := by
      cases negative <;> rfl
    rw [exponentText, List.cons_append, List.cons_append, exponentPart?, if_pos (Or.inl rfl), hsign]
    dsimp only
    rw [digitsOf_append hdigits hrest.noDigit]
    split
    · rename_i heq
      exact absurd (Prod.mk.inj heq).1 hne
    · rename_i heq
      cases heq
      rfl

/-- The parts of a number are read one after the other. -/
theorem parts_of_magnitude {n : Number} (hn : n.Legal) {rest : List Char} (hrest : Ends rest) :
    ∃ cs ds, wholePart? (n.magnitudeText ++ rest) = some (n.whole, cs) ∧
      fractionPart? cs = some (n.fraction, ds) ∧ exponentPart? ds = some (n.exponent, rest) := by
  have hexp := noDigit_exponentText n.exponent hrest
  have hpoint : (exponentText n.exponent ++ rest).head? ≠ some '.' := by
    rcases n.exponent with _ | ⟨negative, ds⟩
    · intro h
      rcases hrest '.' h with h | h | h <;> cases h
    · rintro ⟨⟩
  refine ⟨_, _, ?_, fractionPart?_append hn.fraction hexp hpoint,
    exponentPart?_append hn.exponent hrest⟩
  rw [magnitudeText, List.append_assoc, List.append_assoc]
  exact wholePart?_append hn.whole hn.lead (noDigit_fractionText n.fraction hexp)

/-- A number that is written by its parts reads back as them. -/
theorem number?_text {n : Number} (hn : n.Legal) {rest : List Char} (hrest : Ends rest) :
    number? (n.text ++ rest) = some (n, rest) := by
  obtain ⟨cs, ds, hwhole, hfraction, hexponent⟩ := parts_of_magnitude hn hrest
  unfold text
  split
  · rename_i hnegative
    simp only [number?, List.cons_append, hwhole, hfraction, hexponent, ← hnegative,
      Option.bind_eq_bind, Option.bind_some, Option.pure_def]
  · rename_i hnegative
    rw [Bool.not_eq_true] at hnegative
    rw [number?]
    · simp only [hwhole, hfraction, hexponent, ← hnegative, Option.bind_eq_bind, Option.bind_some,
        Option.pure_def]
    · intro cs heq
      obtain ⟨c, ds, hc⟩ := List.exists_cons_of_ne_nil hn.whole.1
      have hdigit : c.isDigit = true := hn.whole.2 c (hc ▸ List.mem_cons_self)
      rw [magnitudeText, hc] at heq
      obtain ⟨rfl, -⟩ := List.cons.inj heq
      cases hdigit

end Number

end Json

end ZigbeeGateway
