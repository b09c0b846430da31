-- Numbers as they stand in schemas, in topics and on the command line. A text that is a number in
-- both places is the same number, unless it is octal: a schema reads digits behind a zero in base
-- eight, topics and the command line read them in base ten.
import ZigbeeGateway.Gateway.Handler
import ZigbeeGateway.Gateway.Inspect
import ZigbeeGateway.Proofs.Info.Writing
import ZigbeeGateway.Proofs.Schema.Literals
namespace ZigbeeGateway

/-! ## Octal and decimal -/

namespace Numeral

variable {n m : Nat} {cs : List Char}

theorem digit?_ten_of_eight {c : Char} {d : Nat} (h : digit? 8 c = some d) :
    digit? 10 c = some d := by
  simp only [digit?] at h ⊢
  grind

/-- Read in base ten, digits do not come to less than in base eight, and to nothing only if they are
zeros. -/
theorem foldlM_addDigit_eight_le_ten {a b : Nat} (hle : a ≤ b) (hzero : a = 0 → b = 0)
    (hn : cs.foldlM (addDigit 8) a = some n) (hm : cs.foldlM (addDigit 10) b = some m) :
    n ≤ m ∧ (n = 0 → m = 0) := by
  induction cs generalizing a b with
  | nil =>
    cases hn
    cases hm
    exact ⟨hle, hzero⟩
  | cons c cs ih =>
    obtain ⟨a', ha, hn⟩ := Option.bind_eq_some_iff.mp hn
    obtain ⟨b', hb, hm⟩ := Option.bind_eq_some_iff.mp hm
    obtain ⟨d, hd, rfl⟩ := Option.map_eq_some_iff.mp ha
    obtain ⟨d', hd', rfl⟩ := Option.map_eq_some_iff.mp hb
    obtain rfl : d' = d := Option.some.inj (hd'.symm.trans (digit?_ten_of_eight hd))
    exact ih (by omega) (by omega) hn hm

/-- Octal digits are the same number in base ten only if they come to one digit. -/
theorem eight_eq_ten_iff (hn : ofDigits? 8 cs = some n) (hm : ofDigits? 10 cs = some m) :
    m = n ↔ n < 8 := by
  rcases List.eq_nil_or_concat cs with rfl | ⟨cs, c, rfl⟩
  · cases hn
  · have hne : (cs ++ [c]).isEmpty = false := by simp
    rw [List.concat_eq_append, ofDigits?, hne, if_neg Bool.false_ne_true, List.foldlM_append]
      at hn hm
    obtain ⟨a, ha, hn⟩ := Option.bind_eq_some_iff.mp hn
    obtain ⟨b, hb, hm⟩ := Option.bind_eq_some_iff.mp hm
    obtain ⟨d, hd, rfl⟩ : ∃ d, digit? 8 c = some d ∧ 8 * a + d = n := by simpa [addDigit] using hn
    obtain ⟨d', hd', rfl⟩ : ∃ d, digit? 10 c = some d ∧ 10 * b + d = m := by
      simpa [addDigit] using hm
    obtain rfl : d' = d := Option.some.inj (hd'.symm.trans (digit?_ten_of_eight hd))
    obtain ⟨hle, hzero⟩ := foldlM_addDigit_eight_le_ten (Nat.le_refl 0) id ha hb
    have hlt := digit?_lt hd
    constructor <;> intro h <;> omega

/-- A zero in front changes no number. -/
theorem ofDigits?_zero_cons {base : Nat} {d : Char} (hbase : 0 < base) :
    ofDigits? base ('0' :: d :: cs) = ofDigits? base (d :: cs) := by
  have hzero : digit? base '0' = some 0 := by simp [digit?, hbase]
  simp [ofDigits?, addDigit, hzero]

theorem plus_not_digit (base : Nat) : digit? base '+' = none := by
  simp [digit?]

/-- Digits have no sign in front, so they are read as a number below a limit. -/
theorem below?_of_ofDigits? {base limit : Nat} (h : ofDigits? base cs = some n) :
    below? limit base cs = some m → m = n := by
  intro hm
  obtain ⟨hdigits, -⟩ := Option.filter_eq_some_iff.mp hm
  split at hdigits
  next rest =>
    have hplus := isSome_of_ofDigits? h '+' List.mem_cons_self
    rw [plus_not_digit] at hplus
    cases hplus
  next => exact Option.some.inj (hdigits.symm.trans h)

theorem below?_limit {base limit limit' : Nat} (h : below? limit base cs = some n)
    (hn : n < limit') : below? limit' base cs = some n := by
  obtain ⟨hdigits, -⟩ := Option.filter_eq_some_iff.mp h
  exact Option.filter_eq_some_iff.mpr ⟨hdigits, by simpa using hn⟩

theorem hexOrDecimal?_limit {limit limit' : Nat} (h : hexOrDecimal? limit cs = some n)
    (hn : n < limit') : hexOrDecimal? limit' cs = some n := by
  unfold hexOrDecimal? at h ⊢
  split at h
  · exact below?_limit h hn
  · exact below?_limit h hn
  · exact below?_limit h hn

end Numeral

open Numeral

variable {n m : Nat} {cs : List Char}

/-! ## Texts that are numbers twice -/

/-- Behind a zero in front stands more, but no mark of hex. -/
def Octal (cs : List Char) : Prop := ∃ d ds, cs = '0' :: d :: ds ∧ d ≠ 'x' ∧ d ≠ 'X'

theorem hexOrDecimal?_of_literal {limit : Nat} (hn : Literal n cs)
    (hm : hexOrDecimal? limit cs = some m) : m = n ↔ ¬ (Octal cs ∧ 8 ≤ n) := by
  cases hn with
  | @hex x ds hx hds =>
    have hread : m = n := by
      rcases hx with rfl | rfl
      · exact below?_of_ofDigits? (ofDigits?_of_stands (by decide) hds) hm
      · exact below?_of_ofDigits? (ofDigits?_of_stands (by decide) hds) hm
    refine iff_of_true hread ?_
    rintro ⟨⟨d, rest, hcs, hd, hD⟩, -⟩
    obtain ⟨rfl, rfl⟩ : x = d ∧ ds = rest := by simpa using hcs
    rcases hx with rfl | rfl
    · exact hd rfl
    · exact hD rfl
  | @octal ds hds =>
    obtain ⟨c, rest, d, rfl, hd⟩ := hds.exists_head
    have hx : c ≠ 'x' := ne_of_isDigit (by decide) hd (by decide)
    have hX : c ≠ 'X' := ne_of_isDigit (by decide) hd (by decide)
    have hoctal : Octal ('0' :: c :: rest) := ⟨c, rest, rfl, hx, hX⟩
    have hm : below? limit 10 ('0' :: c :: rest) = some m := by
      simpa [hexOrDecimal?, hx, hX] using hm
    obtain ⟨hdecimal, -⟩ := Option.filter_eq_some_iff.mp hm
    have hdecimal : ofDigits? 10 ('0' :: c :: rest) = some m := hdecimal
    rw [ofDigits?_zero_cons (by decide)] at hdecimal
    rw [eight_eq_ten_iff (ofDigits?_of_stands (by decide) hds) hdecimal]
    simp [hoctal]
  | zero hzero =>
    subst hzero
    have hm : below? limit 10 ['0'] = some m := hm
    have hread : m = 0 := below?_of_ofDigits? (by decide) hm
    exact iff_of_true hread fun h => absurd h.2 (by decide)
  | decimal hds hhead =>
    have hm : below? limit 10 cs = some m := by
      unfold hexOrDecimal? at hm
      split at hm
      next => exact absurd rfl hhead
      next => exact absurd rfl hhead
      next => exact hm
    refine iff_of_true (below?_of_ofDigits? (ofDigits?_of_stands (by decide) hds) hm) ?_
    rintro ⟨⟨d, rest, rfl, -⟩, -⟩
    exact hhead rfl

/-! ## The law -/

/-- A text that is a number below 65536 in a schema and also a number in a topic or on the command
line is the same number in both places, except where it is octal and the number is eight or more:
there it never is. Where it is the same, the text leads from either place to the cluster that has
the number in the schema, unless a cluster has the text as its name. -/
theorem a_number_means_the_same_unless_octal (key : String) (hn : literal? key.toList = some n)
    (hlimit : n < UInt16.size)
    (hm : Handler.levelNumber? key = some m ∨ ∃ limit, hexOrDecimal? limit key.toList = some m) :
    (m = n ↔ ¬ (Octal key.toList ∧ 8 ≤ n)) ∧
      (m = n → ∀ s : Schema, s.clusters.withName? key = none → ∀ c,
        s.clusters.withId? n = some c →
          Handler.cluster? s key = some c ∧ Inspect.cluster s key = .ok c) := by
  obtain ⟨limit, hm⟩ : ∃ limit, hexOrDecimal? limit key.toList = some m :=
    hm.elim (fun h => ⟨UInt16.size, h⟩) id
  refine ⟨hexOrDecimal?_of_literal (literal_of_literal? hn) hm, ?_⟩
  rintro rfl s hname c hc
  have hread : hexOrDecimal? UInt16.size key.toList = some m := hexOrDecimal?_limit hm hlimit
  constructor
  · simp [Handler.cluster?, Handler.levelNumber?, hname, hread, hc]
  · simp [Inspect.cluster, Inspect.find?, hname, hread, hc]

/-- The numbers of these clusters are 31 and 7. -/
def numeralSchema : String :=
  String.ofList (Info.entry "0x1F" "Hex" none ++ Info.entry "007" "Octal" none)

/-- One octal digit is no danger, however many zeros stand in front of it. -/
theorem a_small_octal_number_means_the_same :
    ∃ s c, Schema.load numeralSchema = .ok s ∧ s.clusters.withId? 7 = some c ∧ c.name = "Octal" ∧
      literal? "007".toList = some 7 ∧ Handler.levelNumber? "007" = some 7 ∧
      Handler.cluster? s "007" = some c ∧ Inspect.cluster s "007" = .ok c := by
  have hload : (Schema.load numeralSchema).toOption.map (fun s =>
      ((s.clusters.withId? 7).map (·.name), (s.clusters.withName? "007").isNone)) =
      some (some "Octal", true) := by
    unfold Schema.load Info.parse numeralSchema
    rw [String.toList_ofList]
    decide +kernel
  rcases h : Schema.load numeralSchema with e | s
  · rw [h] at hload
    cases hload
  · rw [h] at hload
    obtain ⟨hid, hname⟩ := Prod.mk.inj (Option.some.inj hload)
    obtain ⟨c, hc, hcname⟩ := Option.map_eq_some_iff.mp hid
    have hn : literal? "007".toList = some 7 := by decide
    have hm : Handler.levelNumber? "007" = some 7 := by decide
    obtain ⟨-, hleads⟩ := a_number_means_the_same_unless_octal "007" hn (by decide) (.inl hm)
    obtain ⟨htopic, hline⟩ := hleads rfl s (by simpa using hname) c hc
    exact ⟨s, c, rfl, hc, hcname, hn, hm, htopic, hline⟩

/-- The first of these clusters has the number eight. -/
def octalSchema : String :=
  String.ofList (Info.entry "010" "Eight" none ++ Info.entry "10" "Ten" none)

/-- What a schema calls 010 is number eight, and from a topic and from the command line 010 leads to
number ten. -/
theorem an_octal_number_leads_elsewhere :
    literal? "010".toList = some 8 ∧ Handler.levelNumber? "010" = some 10 ∧
      hexOrDecimal? UInt64.size "010".toList = some 10 ∧
      (Schema.load octalSchema).toOption.map (fun s =>
        ((s.clusters.withId? 8).map (·.name), (Handler.cluster? s "010").map (·.name),
          (Inspect.cluster s "010").toOption.map (·.name))) =
        some (some "Eight", some "Ten", some "Ten") := by
  refine ⟨by decide, by decide, by decide, ?_⟩
  unfold Schema.load Info.parse octalSchema
  rw [String.toList_ofList]
  decide +kernel

end ZigbeeGateway
