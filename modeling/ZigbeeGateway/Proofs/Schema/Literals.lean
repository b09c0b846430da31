-- The literals of a number in a schema: hex after 0x, octal after a zero, or decimal. Leading zeros
-- and letters of either case are the writer's choice.
import Mathlib.Data.List.Induction
import ZigbeeGateway.Proofs.Text.Digits
import ZigbeeGateway.Schema.Load
namespace ZigbeeGateway

namespace Numeral

variable {base n : Nat} {cs : List Char}

/-- A character that is the digit `d` of a base. -/
def IsDigit (base d : Nat) (c : Char) : Prop :=
  d < base ∧ (c = digitChar d ∨ c = (digitChar d).toUpper)

/-- The number that digits of a base stand for, highest digit first. -/
inductive Stands (base : Nat) : (n : Nat) → List Char → Prop
  | one {d : Nat} {c : Char} : IsDigit base d c → Stands base d [c]
  | snoc {n d : Nat} {cs : List Char} {c : Char} :
      Stands base n cs → IsDigit base d c → Stands base (base * n + d) (cs ++ [c])

theorem digit?_of_isDigit {d : Nat} {c : Char} (hbase : base ≤ 36) (h : IsDigit base d c) :
    digit? base c = some d := by
  obtain ⟨hd, rfl | rfl⟩ := h
  · exact digit?_digitChar hd hbase
  · have hall : ∀ d < 36, digit? 36 (digitChar d).toUpper = some d := by decide
    have h36 := hall d (by omega)
    simp only [digit?] at h36 ⊢
    grind

theorem Stands.ne_nil (h : Stands base n cs) : cs ≠ [] := by
  cases h <;> simp

theorem ofDigits?_of_stands (hbase : base ≤ 36) (h : Stands base n cs) :
    ofDigits? base cs = some n := by
  have hfold : cs.foldlM (addDigit base) 0 = some n := by
    induction h with
    | one hd => simp [addDigit, digit?_of_isDigit hbase hd]
    | snoc h hd ih => simp [List.foldlM_append, ih, addDigit, digit?_of_isDigit hbase hd]
  unfold ofDigits?
  rw [hfold]
  simpa using h.ne_nil

theorem isDigit_of_digit? {d : Nat} {c : Char} (hbase : base ≤ 36) (h : digit? base c = some d) :
    IsDigit base d c := by
  have hall : ∀ k < 123, ∀ d < 36, digit? 36 (Char.ofNat k) = some d →
      Char.ofNat k = digitChar d ∨ Char.ofNat k = (digitChar d).toUpper := by
    decide +kernel
  have hd := digit?_lt h
  have h36 : digit? 36 c = some d := by
    simp only [digit?] at h ⊢
    grind
  have hchar := hall c.toNat (toNat_lt_of_digit? h) d (by omega)
  rw [Char.ofNat_toNat] at hchar
  exact ⟨hd, hchar h36⟩

theorem stands_of_foldlM_addDigit (hbase : base ≤ 36) (hne : cs ≠ [])
    (h : cs.foldlM (addDigit base) 0 = some n) : Stands base n cs := by
  induction cs using List.reverseRecOn generalizing n with
  | nil => exact absurd rfl hne
  | append_singleton cs c ih =>
    rw [List.foldlM_append] at h
    obtain ⟨a, ha, h⟩ := Option.bind_eq_some_iff.mp h
    obtain ⟨d, hd, rfl⟩ : ∃ d, digit? base c = some d ∧ base * a + d = n := by
      simpa [addDigit] using h
    have hdigit := isDigit_of_digit? hbase hd
    by_cases hcs : cs = []
    · subst hcs
      cases ha
      simpa using Stands.one hdigit
    · exact .snoc (ih hcs ha) hdigit

/-- A run of digits is read as the number that it stands for, and nothing else is read. -/
theorem ofDigits?_eq_some_iff (hbase : base ≤ 36) :
    ofDigits? base cs = some n ↔ Stands base n cs := by
  refine ⟨fun h => ?_, ofDigits?_of_stands hbase⟩
  obtain ⟨hne, h⟩ := Option.ite_none_left_eq_some.mp h
  exact stands_of_foldlM_addDigit hbase (by simpa using hne) h

theorem stands_digits (hbase : 2 ≤ base) (n : Nat) :
    Stands base n ((digits base n).map digitChar) := by
  fun_induction digits base n with
  | case1 n h => exact .one ⟨by omega, .inl rfl⟩
  | case2 n h ih =>
    have := Stands.snoc ih ⟨Nat.mod_lt n (by omega), .inl rfl⟩
    rw [Nat.div_add_mod] at this
    simpa using this

theorem Stands.zero_cons (hbase : 0 < base) (h : Stands base n cs) : Stands base n ('0' :: cs) := by
  have hzero : Stands base 0 ['0'] := .one ⟨hbase, .inl rfl⟩
  induction h with
  | @one d c hd => simpa using hzero.snoc hd
  | snoc h hd ih => exact ih.snoc hd

theorem stands_hex (width n : Nat) : Stands 16 n (hex width n) := by
  have hzeros : ∀ k, Stands 16 n (List.replicate k '0' ++ (digits 16 n).map digitChar) := by
    intro k
    induction k with
    | zero => exact stands_digits (by decide) n
    | succ k ih =>
      rw [List.replicate_succ]
      exact ih.zero_cons (by decide)
  exact hzeros _

theorem Stands.exists_head (h : Stands base n cs) :
    ∃ c rest d, cs = c :: rest ∧ IsDigit base d c := by
  induction h with
  | @one d c hd => exact ⟨c, [], d, rfl, hd⟩
  | @snoc n d cs c h hd ih =>
    obtain ⟨c₀, rest, d₀, rfl, hd₀⟩ := ih
    exact ⟨c₀, rest ++ [c], d₀, rfl, hd₀⟩

theorem ne_of_isDigit {d : Nat} {c x : Char} (hbase : base ≤ 36) (h : IsDigit base d c)
    (hx : digit? base x = none) : c ≠ x := by
  rintro rfl
  rw [digit?_of_isDigit hbase h] at hx
  cases hx

end Numeral

open Numeral

/-! ## Literals -/

/-- The ways to write a number in a schema. -/
inductive Literal (n : Nat) : List Char → Prop
  | hex {x : Char} {ds : List Char} :
      x = 'x' ∨ x = 'X' → Stands 16 n ds → Literal n ('0' :: x :: ds)
  | octal {ds : List Char} : Stands 8 n ds → Literal n ('0' :: ds)
  | zero : n = 0 → Literal n ['0']
  | decimal {ds : List Char} : Stands 10 n ds → ds.head? ≠ some '0' → Literal n ds

variable {n : Nat} {cs : List Char}

theorem literal?_of_literal (h : Literal n cs) (hn : n < UInt64.size) : literal? cs = some n := by
  cases h with
  | @hex x ds hx hds =>
    rcases hx with rfl | rfl <;>
      simp [literal?, ofDigits?_of_stands (by decide) hds, hn]
  | @octal ds hds =>
    obtain ⟨c, rest, d, rfl, hd⟩ := hds.exists_head
    have hx : c ≠ 'x' := ne_of_isDigit (by decide) hd (by decide)
    have hX : c ≠ 'X' := ne_of_isDigit (by decide) hd (by decide)
    simp [literal?, ofDigits?_of_stands (by decide) hds, hn]
  | zero h =>
    subst h
    decide
  | decimal hds hhead =>
    obtain ⟨c, rest, d, rfl, hd⟩ := hds.exists_head
    have hc : c ≠ '0' := fun e => hhead (congrArg some e)
    simp [literal?, hc, ofDigits?_of_stands (by decide) hds, hn]

/-- Nothing but the literals is read. -/
theorem literal_of_literal? (h : literal? cs = some n) : Literal n cs := by
  obtain ⟨hdigits, -⟩ := Option.filter_eq_some_iff.mp h
  split at hdigits
  next => exact .hex (.inl rfl) ((ofDigits?_eq_some_iff (by decide)).mp hdigits)
  next => exact .hex (.inr rfl) ((ofDigits?_eq_some_iff (by decide)).mp hdigits)
  next => exact .octal ((ofDigits?_eq_some_iff (by decide)).mp hdigits)
  next hoctal =>
    have hstands := (ofDigits?_eq_some_iff (by decide)).mp hdigits
    by_cases hhead : cs.head? = some '0'
    · obtain ⟨rest, rfl⟩ := List.head?_eq_some_iff.mp hhead
      cases rest with
      | nil =>
        have hzero : ofDigits? 10 ['0'] = some 0 := by decide
        rw [hzero] at hdigits
        exact .zero (Option.some.inj hdigits).symm
      | cons d rest => exact absurd rfl (hoctal d rest)
    · exact .decimal hstands hhead

/-- An entry whose key is a literal has its number. -/
theorem Info.Node.id_of_literal {node : Info.Node} {limit : Nat} (h : Literal n node.key.toList)
    (hn : n < limit) (hlimit : limit ≤ UInt64.size) (what : String) :
    node.id what limit = .ok n := by
  have hread : (literal? node.key.toList).filter (· < limit) = some n := by
    rw [literal?_of_literal h (Nat.lt_of_lt_of_le hn hlimit)]
    simp [hn]
  unfold Info.Node.id
  rw [hread]

theorem Literal.ne_global {key : String} (h : Literal n key.toList) (hn : n < UInt64.size) :
    key ≠ "global" := by
  rintro rfl
  have hread := literal?_of_literal h hn
  have hnone : literal? "global".toList = none := by decide
  rw [hnone] at hread
  cases hread

end ZigbeeGateway
