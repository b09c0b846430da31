-- The parts of a TOML text that hold no other values: blanks and comments, strings, numbers
-- and times. Each reader takes its part from the front of a text and gives what it means and
-- the text after it.
import ZigbeeGateway.Number.Double
namespace ZigbeeGateway.Toml

/-! ## Blanks and comments -/

def isBlank (c : Char) : Bool := c == ' ' || c == '\t'

def skipBlanks (cs : List Char) : List Char := cs.dropWhile isBlank

/-- The text after a line break. A carriage return is one only together with a line feed. -/
def lineBreak? : List Char → Option (List Char)
  | '\n' :: rest => some rest
  | '\r' :: '\n' :: rest => some rest
  | _ => none

/-- The characters of comments, and of strings but for their quotes and backslashes: all but
controls, the tab excepted. -/
def isPlain (c : Char) : Bool := c == '\t' || (0x20 ≤ c.toNat && c.toNat ≠ 0x7f)

/-- The text after a comment, if there is one. -/
def skipComment : List Char → List Char
  | '#' :: rest => rest.dropWhile isPlain
  | cs => cs

/-- The text after the rest of a line, in which only blanks and a comment may stand. -/
def lineEnd? (cs : List Char) : Option (List Char) :=
  match skipComment (skipBlanks cs) with
  | [] => some []
  | rest => lineBreak? rest

/-- The text after blanks, line breaks and what else `skip` leaves out in front of those. -/
def skipLines (skip : List Char → List Char) : (fuel : Nat) → List Char → List Char
  | 0, cs => cs
  | fuel + 1, cs =>
    match lineBreak? (skip (skipBlanks cs)) with
    | some rest => skipLines skip fuel rest
    | none => skipBlanks cs

/-- The text after blanks, comments and line breaks. -/
def skipRemarks (cs : List Char) : List Char := skipLines skipComment cs.length cs

/-! ## Strings -/

/-- What a one-letter escape stands for. -/
def escaped? : Char → Option Char
  | 'b' => some '\x08'
  | 't' => some '\t'
  | 'n' => some '\n'
  | 'f' => some '\x0c'
  | 'r' => some '\r'
  | '"' => some '"'
  | '\\' => some '\\'
  | _ => none

/-- The character with the number that hex digits give. -/
def numbered? (digits : List Char) : Option Char := do
  let n ← Numeral.ofDigits? 16 digits
  if n < 0xd800 ∨ (0xdfff < n ∧ n < 0x110000) then return Char.ofNat n
  failure

/-- The character that an escape stands for, after its backslash. -/
def escape? : List Char → Option (Char × List Char)
  | 'u' :: a :: b :: c :: d :: rest => (numbered? [a, b, c, d]).map (·, rest)
  | 'U' :: a :: b :: c :: d :: e :: f :: g :: h :: rest =>
    (numbered? [a, b, c, d, e, f, g, h]).map (·, rest)
  | c :: rest => (escaped? c).map (·, rest)
  | [] => none

/-- The text of a string on one line after its opening quote, up to the quote that closes it. With
`escapes` a backslash starts an escape. -/
def lineString? (quote : Char) (escapes : Bool) :
    (fuel : Nat) → (text : List Char) → List Char → Option (String × List Char)
  | 0, _, _ => none
  | _ + 1, _, [] => none
  | fuel + 1, text, c :: rest =>
    if c = quote then some (String.ofList text.reverse, rest)
    else if escapes ∧ c = '\\' then
      match escape? rest with
      | some (e, rest) => lineString? quote escapes fuel (e :: text) rest
      | none => none
    else if isPlain c then lineString? quote escapes fuel (c :: text) rest
    else none

/-- How many of the next characters are quotes, up to five. -/
def quoteRun (quote : Char) (cs : List Char) : Nat := ((cs.take 5).takeWhile (· = quote)).length

/-- The text after the blanks and line breaks that a backslash at the end of a line leaves out. -/
def skipJoin? (cs : List Char) : Option (List Char) :=
  (lineBreak? (skipBlanks cs)).map fun rest => skipLines id rest.length rest

/-- The text of a string over lines after its three opening quotes, up to the three quotes that
close it. Up to two more quotes may stand before those. Line breaks count as line feeds. -/
def linesString? (quote : Char) (escapes : Bool) :
    (fuel : Nat) → (text : List Char) → List Char → Option (String × List Char)
  | 0, _, _ => none
  | _ + 1, _, [] => none
  | fuel + 1, text, c :: rest =>
    let run := quoteRun quote (c :: rest)
    if 3 ≤ run then
      some (String.ofList (List.replicate (run - 3) quote ++ text).reverse, (c :: rest).drop run)
    else if escapes ∧ c = '\\' then
      match skipJoin? rest, escape? rest with
      | some rest, _ => linesString? quote escapes fuel text rest
      | none, some (e, rest) => linesString? quote escapes fuel (e :: text) rest
      | none, none => none
    else
      match lineBreak? (c :: rest) with
      | some rest => linesString? quote escapes fuel ('\n' :: text) rest
      | none => if isPlain c then linesString? quote escapes fuel (c :: text) rest else none

/-- The text of a string over lines. A line break right after the opening quotes is left out. -/
def afterOpening (cs : List Char) : List Char := (lineBreak? cs).getD cs

/-- The string at the front of a text. -/
def string? (cs : List Char) : Option (String × List Char) :=
  match cs with
  | '"' :: '"' :: '"' :: rest => linesString? '"' true cs.length [] (afterOpening rest)
  | '\'' :: '\'' :: '\'' :: rest => linesString? '\'' false cs.length [] (afterOpening rest)
  | '"' :: rest => lineString? '"' true cs.length [] rest
  | '\'' :: rest => lineString? '\'' false cs.length [] rest
  | _ => none

/-! ## Numbers -/

/-- Further digits, with single underscores between them, after those before in reverse. -/
def moreDigits? (isDigit : Char → Bool) (before : List Char) :
    List Char → Option (List Char × List Char)
  | '_' :: d :: rest => if isDigit d then moreDigits? isDigit (d :: before) rest else none
  | ['_'] => none
  | d :: rest =>
    if isDigit d then moreDigits? isDigit (d :: before) rest else some (before.reverse, d :: rest)
  | [] => some (before.reverse, [])

/-- Digits with single underscores between them. -/
def digits? (isDigit : Char → Bool) : List Char → Option (List Char × List Char)
  | d :: rest => if isDigit d then moreDigits? isDigit [d] rest else none
  | [] => none

/-- A sign that may be left out; true for minus. -/
def sign : List Char → Bool × List Char
  | '+' :: rest => (false, rest)
  | '-' :: rest => (true, rest)
  | cs => (false, cs)

/-- The digits of a number without leading zeros. -/
def wholePart? (cs : List Char) : Option (List Char × List Char) :=
  match cs with
  | '0' :: rest => some (['0'], rest)
  | _ => digits? Char.isDigit cs

/-- The number of a non-empty run of decimal digits. -/
def natural (ds : List Char) : Nat := (Numeral.ofDigits? 10 ds).getD 0

/-- The digits after a point, if there is one. -/
def fraction? : List Char → Option (List Char × List Char)
  | '.' :: rest => digits? Char.isDigit rest
  | _ => none

/-- The sign and digits after an exponent mark, if there is one. -/
def exponent? : List Char → Option (Int × List Char)
  | c :: rest =>
    if c = 'e' ∨ c = 'E' then
      let (negative, rest) := sign rest
      (digits? Char.isDigit rest).map fun (ds, rest) =>
        (if negative then -(natural ds : Int) else natural ds, rest)
    else none
  | [] => none

/-- The text after the fraction and the exponent of a float. At least one of them must be there. A
float that is too large for a double is refused, unless it is negative. -/
def skipFloatEnd? (negative : Bool) (whole cs : List Char) : Option (List Char) :=
  let check (fraction : List Char) (exponent : Int) (rest : List Char) : Option (List Char) :=
    let x := Double.ofDecimal negative (natural (whole ++ fraction)) (exponent - fraction.length)
    if x.isInfinite && !negative then none else some rest
  match fraction? cs with
  | some (fraction, rest) =>
    match exponent? rest with
    | some (exponent, rest) => check fraction exponent rest
    | none => check fraction 0 rest
  | none => (exponent? cs).bind fun (exponent, rest) => check [] exponent rest

/-- The text after a float. -/
def skipFloat? (cs : List Char) : Option (List Char) :=
  let (negative, cs) := sign cs
  match cs with
  | 'i' :: 'n' :: 'f' :: rest => some rest
  | 'n' :: 'a' :: 'n' :: rest => some rest
  | _ => (wholePart? cs).bind fun (whole, rest) => skipFloatEnd? negative whole rest

/-- The number that the digits of a base stand for, if 63 bits hold it. -/
def based? (base : Nat) (cs : List Char) : Option (Int × List Char) := do
  let (ds, rest) ← digits? (fun c => (Numeral.digit? base c).isSome) cs
  let n ← (Numeral.ofDigits? base ds).filter (· < 0x8000000000000000)
  return (n, rest)

/-- The whole number at the front of a text: decimal with an optional sign, or with a base mark
and without a sign. It must have 64 bits. -/
def integer? (cs : List Char) : Option (Int × List Char) :=
  match cs with
  | '0' :: 'x' :: rest => based? 16 rest
  | '0' :: 'o' :: rest => based? 8 rest
  | '0' :: 'b' :: rest => based? 2 rest
  | _ => do
    let (negative, rest) := sign cs
    let (ds, rest) ← wholePart? rest
    let n : Int := if negative then -(natural ds : Int) else natural ds
    if n < -0x8000000000000000 ∨ 0x8000000000000000 ≤ n then failure
    return (n, rest)

/-! ## Times -/

/-- A number of exactly `count` digits between two limits. -/
def fixed? (count low high : Nat) (cs : List Char) : Option (Nat × List Char) := do
  let ds := (cs.take count).takeWhile Char.isDigit
  if ds.length ≠ count then failure
  let n := natural ds
  if n < low ∨ high < n then failure
  return (n, cs.drop count)

/-- The text after a character that must come next. -/
def expect? (c : Char) : List Char → Option (List Char)
  | d :: rest => if c = d then some rest else none
  | [] => none

/-- How many days a month has. -/
def daysOf (year month : Nat) : Nat :=
  if month = 2 then
    if year % 4 = 0 ∧ (year % 100 ≠ 0 ∨ year % 400 = 0) then 29 else 28
  else if month = 4 ∨ month = 6 ∨ month = 9 ∨ month = 11 then 30
  else 31

/-- The text after a date. -/
def skipDate? (cs : List Char) : Option (List Char) := do
  let (year, cs) ← fixed? 4 0 9999 cs
  let (month, cs) ← fixed? 2 1 12 (← expect? '-' cs)
  let (_, cs) ← fixed? 2 1 (daysOf year month) (← expect? '-' cs)
  return cs

/-- The text after a time of day. -/
def skipTime? (cs : List Char) : Option (List Char) := do
  let (_, cs) ← fixed? 2 0 23 cs
  let (_, cs) ← fixed? 2 0 59 (← expect? ':' cs)
  let (_, cs) ← fixed? 2 0 60 (← expect? ':' cs)
  match cs with
  | '.' :: rest =>
    if (rest.takeWhile Char.isDigit).isEmpty then failure
    return rest.dropWhile Char.isDigit
  | _ => return cs

/-- The text after an offset from universal time, if there is one. -/
def skipOffset? (cs : List Char) : Option (List Char) :=
  match cs with
  | 'Z' :: rest => some rest
  | 'z' :: rest => some rest
  | c :: rest =>
    if c = '+' ∨ c = '-' then do
      let (_, rest) ← fixed? 2 0 23 rest
      let (_, rest) ← fixed? 2 0 59 (← expect? ':' rest)
      return rest
    else some cs
  | [] => some []

/-- The text after a date, a time of day, or both with an optional offset. -/
def skipDateTime? (cs : List Char) : Option (List Char) :=
  match skipDate? cs with
  | none => skipTime? cs
  | some rest =>
    match rest with
    | c :: time =>
      if c = 'T' ∨ c = 't' ∨ c = ' ' then
        match skipTime? time with
        | some rest => skipOffset? rest
        | none => some rest
      else some rest
    | [] => some []

end ZigbeeGateway.Toml
