-- Whole numbers as text: the digits of a number in a base, and the number that a run
-- of digits stands for.
namespace ZigbeeGateway.Numeral

/-! ## Writing -/

/-- The digits of a number in a base, highest first. Zero has the one digit 0. -/
def digits (base n : Nat) : List Nat :=
  if _h : n < base ∨ base ≤ 1 then [n]
  else digits base (n / base) ++ [n % base]
termination_by n
decreasing_by exact Nat.div_lt_self (by omega) (by omega)

/-- The character of a digit below 36, letters in lower case. -/
def digitChar (d : Nat) : Char :=
  if d < 10 then Char.ofNat (d + '0'.toNat) else Char.ofNat (d - 10 + 'a'.toNat)

/-- A number in decimal. -/
def decimal (n : Nat) : List Char := (digits 10 n).map digitChar

/-- A whole number in decimal, with a minus sign below zero. -/
def signedDecimal (n : Int) : List Char :=
  if n < 0 then '-' :: decimal n.natAbs else decimal n.natAbs

/-- A number in hex with lower-case letters, filled up with zeros to at least `width` digits. -/
def hex (width n : Nat) : List Char :=
  let ds := (digits 16 n).map digitChar
  List.replicate (width - ds.length) '0' ++ ds

/-- A number in hex with upper-case letters, filled up with zeros to at least `width` digits. -/
def upperHex (width n : Nat) : List Char := (hex width n).map Char.toUpper

/-! ## Reading -/

/-- The value of a digit in a base up to 36, letters in either case. -/
def digit? (base : Nat) (c : Char) : Option Nat :=
  let d :=
    if '0' ≤ c ∧ c ≤ '9' then c.toNat - '0'.toNat
    else if 'a' ≤ c ∧ c ≤ 'z' then c.toNat - 'a'.toNat + 10
    else if 'A' ≤ c ∧ c ≤ 'Z' then c.toNat - 'A'.toNat + 10
    else base
  if d < base then some d else none

/-- One more digit after a number read so far. -/
def addDigit (base : Nat) (n : Nat) (c : Char) : Option Nat := (digit? base c).map (base * n + ·)

/-- The number that a non-empty run of digits stands for. -/
def ofDigits? (base : Nat) (cs : List Char) : Option Nat :=
  if cs.isEmpty then none else cs.foldlM (addDigit base) 0

/-- A run of digits with one optional plus sign in front, standing for a number below `limit`. -/
def below? (limit base : Nat) (cs : List Char) : Option Nat :=
  let ds := match cs with
    | '+' :: rest => rest
    | _ => cs
  (ofDigits? base ds).filter (· < limit)

/-- A number below `limit`: hex after `0x` or `0X`, else decimal, either with an optional plus
sign in front of its digits. -/
def hexOrDecimal? (limit : Nat) : List Char → Option Nat
  | '0' :: 'x' :: rest => below? limit 16 rest
  | '0' :: 'X' :: rest => below? limit 16 rest
  | cs => below? limit 10 cs

/-- Whether a character is a hex digit of either case. -/
def isHexDigit (c : Char) : Bool := (digit? 16 c).isSome

/-! ## What is written reads back -/

theorem digit?_digitChar {base d : Nat} (hd : d < base) (hbase : base ≤ 36) :
    digit? base (digitChar d) = some d := by
  have h : ∀ d < 36, digit? 36 (digitChar d) = some d := by decide
  have hd36 := h d (by omega)
  simp only [digit?] at hd36 ⊢
  grind

theorem digits_lt {base : Nat} (hbase : 2 ≤ base) (n : Nat) : ∀ d ∈ digits base n, d < base := by
  fun_induction digits base n with
  | case1 n h => grind
  | case2 n h ih => simp; exact fun d hd => hd.elim (ih d) (· ▸ Nat.mod_lt _ (by omega))

theorem digits_ne_nil (base n : Nat) : digits base n ≠ [] := by
  fun_induction digits base n <;> simp

theorem foldlM_addDigit {base : Nat} (hbase : base ≤ 36) (ds : List Nat) (h : ∀ d ∈ ds, d < base)
    (n : Nat) :
    (ds.map digitChar).foldlM (addDigit base) n = some (ds.foldl (base * · + ·) n) := by
  induction ds generalizing n with
  | nil => rfl
  | cons d ds ih =>
    simp [addDigit, digit?_digitChar (h d (by simp)) hbase, ih fun d hd => h d (by simp [hd])]

theorem foldl_digits (base n : Nat) : (digits base n).foldl (base * · + ·) 0 = n := by
  fun_induction digits base n with
  | case1 => simp
  | case2 n h ih => simp [ih, Nat.div_add_mod]

/-- The digits of a number stand for it. -/
theorem ofDigits?_digits {base : Nat} (hlow : 2 ≤ base) (hhigh : base ≤ 36) (n : Nat) :
    ofDigits? base ((digits base n).map digitChar) = some n := by
  simp [ofDigits?, digits_ne_nil, foldlM_addDigit hhigh _ (digits_lt hlow n), foldl_digits]

theorem ofDigits?_decimal (n : Nat) : ofDigits? 10 (decimal n) = some n :=
  ofDigits?_digits (by decide) (by decide) n

end ZigbeeGateway.Numeral
