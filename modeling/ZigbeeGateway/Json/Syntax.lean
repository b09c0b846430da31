-- The grammar of JSON text. A text is read into a tree of its parts as they are written;
-- what numbers and escapes mean is decided later, and parts that nobody looks at are never
-- asked for a meaning.
import ZigbeeGateway.Text.Numeral
namespace ZigbeeGateway.Json

/-- One part of a string as it is written: a character, or a UTF-16 unit given by number. -/
inductive StringPart where
  | char (c : Char)
  | unit (n : Nat)
deriving DecidableEq, Repr

/-- A number as it is written, each run of digits by the characters in it. -/
structure Number where
  negative : Bool
  whole : List Char
  fraction : Option (List Char)
  /-- The sign and the digits after the exponent mark. -/
  exponent : Option (Bool × List Char)
deriving DecidableEq, Repr

/-- A JSON text by its parts. The members of an object stand in the order written, repeated names
included. -/
inductive Tree where
  | null
  | bool (b : Bool)
  | number (n : Number)
  | string (parts : List StringPart)
  | array (items : List Tree)
  | object (members : List (List StringPart × Tree))
deriving Repr, Inhabited

/-- Space, tab, line feed and carriage return. -/
def isBlank (c : Char) : Bool := c == ' ' || c == '\t' || c == '\n' || c == '\r'

def skipBlanks (cs : List Char) : List Char := cs.dropWhile isBlank

/-! ## Strings -/

/-- What a one-letter escape stands for. -/
def escaped? : Char → Option Char
  | '"' => some '"'
  | '\\' => some '\\'
  | '/' => some '/'
  | 'b' => some '\x08'
  | 'f' => some '\x0c'
  | 'n' => some '\n'
  | 'r' => some '\r'
  | 't' => some '\t'
  | _ => none

/-- The parts of a string after its opening quote, and the text after its closing quote. -/
def stringParts (parts : List StringPart) : List Char → Option (List StringPart × List Char)
  | [] => none
  | '"' :: rest => some (parts.reverse, rest)
  | '\\' :: 'u' :: a :: b :: c :: d :: rest =>
    match Numeral.ofDigits? 16 [a, b, c, d] with
    | some n => stringParts (.unit n :: parts) rest
    | none => none
  | '\\' :: e :: rest =>
    match escaped? e with
    | some c => stringParts (.char c :: parts) rest
    | none => none
  | c :: rest => if c.toNat < 0x20 then none else stringParts (.char c :: parts) rest

/-! ## Numbers -/

/-- The digits at the front of a text, and the text after them. -/
def digitsOf (cs : List Char) : List Char × List Char :=
  (cs.takeWhile Char.isDigit, cs.dropWhile Char.isDigit)

/-- The digits before a point: one zero, or no zero in front. -/
def wholePart? (cs : List Char) : Option (List Char × List Char) :=
  match digitsOf cs with
  | ([], _) => none
  | ('0' :: _ :: _, _) => none
  | (ds, rest) => some (ds, rest)

/-- The digits after a point, if there is a point. -/
def fractionPart? : List Char → Option (Option (List Char) × List Char)
  | '.' :: cs =>
    match digitsOf cs with
    | ([], _) => none
    | (ds, rest) => some (some ds, rest)
  | cs => some (none, cs)

/-- A sign that may be left out; true for minus. -/
def sign : List Char → Bool × List Char
  | '-' :: cs => (true, cs)
  | '+' :: cs => (false, cs)
  | cs => (false, cs)

/-- The sign and digits after an exponent mark, if there is one. -/
def exponentPart? : List Char → Option (Option (Bool × List Char) × List Char)
  | c :: cs =>
    if c = 'e' ∨ c = 'E' then
      match digitsOf (sign cs).2 with
      | ([], _) => none
      | (ds, rest) => some (some ((sign cs).1, ds), rest)
    else some (none, c :: cs)
  | [] => some (none, [])

/-- The number at the front of a text. -/
def number? (cs : List Char) : Option (Number × List Char) := do
  let (negative, cs) := match cs with
    | '-' :: rest => (true, rest)
    | _ => (false, cs)
  let (whole, cs) ← wholePart? cs
  let (fraction, cs) ← fractionPart? cs
  let (exponent, cs) ← exponentPart? cs
  return (⟨negative, whole, fraction, exponent⟩, cs)

/-! ## Values -/

mutual

/-- The value at the front of a text, and the text after it. -/
def value? : (fuel : Nat) → List Char → Option (Tree × List Char)
  | 0, _ => none
  | fuel + 1, cs =>
    match skipBlanks cs with
    | 'n' :: 'u' :: 'l' :: 'l' :: rest => some (.null, rest)
    | 't' :: 'r' :: 'u' :: 'e' :: rest => some (.bool true, rest)
    | 'f' :: 'a' :: 'l' :: 's' :: 'e' :: rest => some (.bool false, rest)
    | '"' :: rest => (stringParts [] rest).map fun (parts, rest) => (.string parts, rest)
    | '[' :: rest =>
      match skipBlanks rest with
      | ']' :: rest => some (.array [], rest)
      | _ => items? fuel [] rest
    | '{' :: rest =>
      match skipBlanks rest with
      | '}' :: rest => some (.object [], rest)
      | _ => members? fuel [] rest
    | rest => (number? rest).map fun (n, rest) => (.number n, rest)

/-- The items of an array from some item on, after the items before it in reverse. -/
def items? : (fuel : Nat) → List Tree → List Char → Option (Tree × List Char)
  | 0, _, _ => none
  | fuel + 1, before, cs =>
    match value? fuel cs with
    | none => none
    | some (item, rest) =>
      match skipBlanks rest with
      | ',' :: rest => items? fuel (item :: before) rest
      | ']' :: rest => some (.array (item :: before).reverse, rest)
      | _ => none

/-- The members of an object from some member on, after the members before it in reverse. -/
def members? : (fuel : Nat) → List (List StringPart × Tree) → List Char →
    Option (Tree × List Char)
  | 0, _, _ => none
  | fuel + 1, before, cs =>
    match skipBlanks cs with
    | '"' :: rest =>
      match stringParts [] rest with
      | none => none
      | some (name, rest) =>
        match skipBlanks rest with
        | ':' :: rest =>
          match value? fuel rest with
          | none => none
          | some (item, rest) =>
            match skipBlanks rest with
            | ',' :: rest => members? fuel ((name, item) :: before) rest
            | '}' :: rest => some (.object ((name, item) :: before).reverse, rest)
            | _ => none
        | _ => none
    | _ => none

end

/-- The tree of a text that holds one value and blanks around it. Every two steps of reading use
up at least one character, so the fuel never runs out. -/
def parse? (cs : List Char) : Option Tree :=
  match value? (2 * cs.length + 2) cs with
  | some (tree, rest) => if (skipBlanks rest).isEmpty then some tree else none
  | none => none

end ZigbeeGateway.Json
