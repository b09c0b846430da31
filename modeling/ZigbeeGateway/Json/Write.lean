-- Values as JSON text, on one line or spread over lines. JSON has no infinities and no
-- NaN: the first are written as strings, the other as null.
import ZigbeeGateway.Value
import ZigbeeGateway.Number.Shortest
namespace ZigbeeGateway.Json

/-- A character inside a string: quotes, backslashes and controls are escaped, all else stands for
itself. -/
def escape (c : Char) : List Char :=
  if c = '"' then ['\\', '"']
  else if c = '\\' then ['\\', '\\']
  else if c = '\x08' then ['\\', 'b']
  else if c = '\x0c' then ['\\', 'f']
  else if c = '\n' then ['\\', 'n']
  else if c = '\r' then ['\\', 'r']
  else if c = '\t' then ['\\', 't']
  else if c.toNat < 0x20 then '\\' :: 'u' :: Numeral.hex 4 c.toNat
  else [c]

/-- A string in quotes. -/
def quoted (s : String) : List Char := '"' :: (s.toList.flatMap escape ++ ['"'])

/-- A double: NaN as null, the infinities as strings. -/
def doubleText (x : Double) : List Char :=
  if x.isNaN then "null".toList
  else if x.isInfinite then if x.isNegative then "\"-inf\"".toList else "\"inf\"".toList
  else x.text .json

/-- Some text with characters added at its end. -/
def add (out : String) (cs : List Char) : String := cs.foldl String.push out

/-! ## On one line -/

mutual

/-- Some text with a value added. -/
def addValue (out : String) : Value → String
  | .null => add out "null".toList
  | .bool b => add out (if b then "true".toList else "false".toList)
  | .int n => add out (Numeral.signedDecimal n.toInt)
  | .uint n => add out (Numeral.decimal n.toNat)
  | .float x => add out (doubleText x)
  | .text s => add out (quoted s)
  | .list [] => add out ['[', ']']
  | .list (v :: vs) => (addItems (addValue (out.push '[') v) vs).push ']'
  | .record [] => add out ['\x7b', '\x7d']
  | .record ((name, v) :: fields) =>
    (addFields (addValue (add (out.push '\x7b') (quoted name ++ [':'])) v) fields).push '\x7d'

/-- Some text with further items of an array added, each after a comma. -/
def addItems (out : String) : List Value → String
  | [] => out
  | v :: vs => addItems (addValue (out.push ',') v) vs

/-- Some text with further fields of a record added, each after a comma. -/
def addFields (out : String) : List (String × Value) → String
  | [] => out
  | (name, v) :: fields =>
    addFields (addValue (add (out.push ',') (quoted name ++ [':'])) v) fields

end

/-- A value on one line, without blanks. -/
def compact (v : Value) : String := addValue "" v

/-! ## Over lines -/

/-- A line break and two spaces per level. -/
def newline (level : Nat) : List Char := '\n' :: List.replicate (2 * level) ' '

mutual

/-- Some text with a value added whose items and fields stand on lines of their own, one level
further in. -/
def addPretty (level : Nat) (out : String) : Value → String
  | .list (v :: vs) =>
    let out := addPretty (level + 1) (add out ('[' :: newline (level + 1))) v
    add (addPrettyItems (level + 1) out vs) (newline level ++ [']'])
  | .record ((name, v) :: fields) =>
    let out := add out ('\x7b' :: newline (level + 1) ++ quoted name ++ [':', ' '])
    let out := addPretty (level + 1) out v
    add (addPrettyFields (level + 1) out fields) (newline level ++ ['\x7d'])
  | .list [] => add out ['[', ']']
  | .record [] => add out ['\x7b', '\x7d']
  | v => addValue out v

/-- Some text with further items of an array added, each on its line. -/
def addPrettyItems (level : Nat) (out : String) : List Value → String
  | [] => out
  | v :: vs => addPrettyItems level (addPretty level (add out (',' :: newline level)) v) vs

/-- Some text with further fields of a record added, each on its line. -/
def addPrettyFields (level : Nat) (out : String) : List (String × Value) → String
  | [] => out
  | (name, v) :: fields =>
    let out := add out (',' :: newline level ++ quoted name ++ [':', ' '])
    addPrettyFields level (addPretty level out v) fields

end

/-- A value with every item and field on its own line, two spaces further in per level. -/
def pretty (v : Value) : String := addPretty 0 "" v

end ZigbeeGateway.Json
