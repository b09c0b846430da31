-- What a TOML text says: lines with keys and values, and headers of tables.
import ZigbeeGateway.Toml.Scalar
import ZigbeeGateway.Toml.Table
namespace ZigbeeGateway.Toml

/-! ## Keys -/

/-- The characters of a key without quotes. -/
def isBare (c : Char) : Bool := c.isAlphanum || c == '-' || c == '_'

/-- One part of a key. -/
def keyPart? (cs : List Char) : Option (String × List Char) :=
  match cs with
  | '"' :: rest => lineString? '"' true cs.length [] rest
  | '\'' :: rest => lineString? '\'' false cs.length [] rest
  | _ =>
    let part := cs.takeWhile isBare
    if part.isEmpty then none else some (String.ofList part, cs.dropWhile isBare)

/-- The parts of a key from some part on, after those before in reverse. -/
def keyFrom? : (fuel : Nat) → (before : List String) → List Char →
    Option (List String × List Char)
  | 0, _, _ => none
  | fuel + 1, before, cs => do
    let (part, rest) ← keyPart? (skipBlanks cs)
    match skipBlanks rest with
    | '.' :: rest => keyFrom? fuel (part :: before) rest
    | rest => return ((part :: before).reverse, rest)

/-- Keys have fewer parts than this, and values fewer arrays and tables inside each other. -/
def nestingLimit : Nat := 80

/-- A key: its parts but for the last, the last, and the text after it. -/
def key? (cs : List Char) : Option (List String × String × List Char) := do
  let (parts, rest) ← keyFrom? cs.length [] cs
  if nestingLimit ≤ parts.length then failure
  return (parts.dropLast, ← parts.getLast?, rest)

/-! ## Values -/

/-- A value that holds no others. -/
def scalar? (cs : List Char) : Option (Value × List Char) :=
  match cs with
  | 't' :: 'r' :: 'u' :: 'e' :: rest => some (.boolean true, rest)
  | 'f' :: 'a' :: 'l' :: 's' :: 'e' :: rest => some (.boolean false, rest)
  | '"' :: _ => (string? cs).map fun (s, rest) => (.text s, rest)
  | '\'' :: _ => (string? cs).map fun (s, rest) => (.text s, rest)
  | _ =>
    match skipDateTime? cs, skipFloat? cs with
    | some rest, _ => some (.time, rest)
    | none, some rest => some (.float, rest)
    | none, none => (integer? cs).map fun (n, rest) => (.integer n, rest)

mutual

/-- The value at the front of a text, with `room` for that many values inside each other. -/
def value? : (fuel room : Nat) → List Char → Option (Value × List Char)
  | 0, _, _ => none
  | _ + 1, 0, '[' :: _ => none
  | _ + 1, 0, '\x7b' :: _ => none
  | fuel + 1, room + 1, '[' :: rest => items? fuel room [] rest
  | fuel + 1, room + 1, '\x7b' :: rest =>
    match skipBlanks rest with
    | '\x7d' :: rest => some (.table [], rest)
    | rest => pairs? fuel room [] rest
  | _ + 1, _, cs => scalar? cs

/-- The items of an array from some item on, after those before in reverse. A comma may stand
behind the last. -/
def items? : (fuel room : Nat) → (before : List Value) → List Char → Option (Value × List Char)
  | 0, _, _, _ => none
  | fuel + 1, room, before, cs =>
    match skipRemarks cs with
    | ']' :: rest => some (.array before.reverse, rest)
    | cs =>
      match value? fuel room cs with
      | none => none
      | some (item, rest) =>
        match skipRemarks rest with
        | ',' :: rest => items? fuel room (item :: before) rest
        | ']' :: rest => some (.array (item :: before).reverse, rest)
        | _ => none

/-- The pairs of a table in braces from some pair on, added to the entries before. -/
def pairs? : (fuel room : Nat) → Entries → List Char → Option (Value × List Char)
  | 0, _, _, _ => none
  | fuel + 1, room, entries, cs =>
    match key? cs with
    | some (path, key, '=' :: rest) =>
      match value? fuel room (skipBlanks rest) with
      | none => none
      | some (v, rest) =>
        match entries.addValue path key v with
        | none => none
        | some entries =>
          match skipBlanks rest with
          | ',' :: rest => pairs? fuel room entries rest
          | '\x7d' :: rest => some (.table (entryValues entries), rest)
          | _ => none
    | _ => none

end

/-! ## Texts -/

/-- Where the reading of a text stands: everything read, and the path of the table that the lines
belong to. -/
structure Document where
  root : Entries
  current : List String

namespace Document

/-- Nothing has been read. -/
def empty : Document := ⟨[], []⟩

/-- Adds a line with a key and a value. -/
def addLine (d : Document) (cs : List Char) : Option (Document × List Char) := do
  let (path, key, rest) ← key? cs
  let rest ← expect? '=' rest
  let (v, rest) ← value? (2 * cs.length + 2) (nestingLimit - 1) (skipBlanks rest)
  let root ← d.root.update false (fun _ es => es.addValue path key v) d.current .header
  return ({ d with root }, ← lineEnd? rest)

/-- Adds a header in double brackets, after those. -/
def addNext (d : Document) (cs : List Char) : Option (Document × List Char) := do
  let (path, key, rest) ← key? cs
  let rest ← expect? ']' (← expect? ']' rest)
  let root ← d.root.update false (fun _ es => es.openNext key) path .header
  return (⟨root, path ++ [key]⟩, ← lineEnd? rest)

/-- Adds a header in single brackets, after that. -/
def addTable (d : Document) (cs : List Char) : Option (Document × List Char) := do
  let (path, key, rest) ← key? cs
  let rest ← expect? ']' rest
  let root ← d.root.update false (fun _ es => es.openTable key) path .header
  return (⟨root, path ++ [key]⟩, ← lineEnd? rest)

/-- Adds all lines of a text. -/
def addLines : (fuel : Nat) → Document → List Char → Option Document
  | 0, _, _ => none
  | fuel + 1, d, cs =>
    match skipBlanks cs with
    | [] => some d
    | '#' :: rest => (lineEnd? ('#' :: rest)).bind (addLines fuel d)
    | '[' :: '[' :: rest => (d.addNext rest).bind fun (d, rest) => addLines fuel d rest
    | '[' :: rest => (d.addTable rest).bind fun (d, rest) => addLines fuel d rest
    | c :: rest =>
      match lineBreak? (c :: rest) with
      | some rest => addLines fuel d rest
      | none => (d.addLine (c :: rest)).bind fun (d, rest) => addLines fuel d rest

end Document

/-- The table that a text is. A byte order mark in front of it is skipped. -/
def readChars? (cs : List Char) : Option (List (String × Value)) :=
  let cs := match cs with
    | '\uFEFF' :: rest => rest
    | _ => cs
  (Document.empty.addLines (cs.length + 1) cs).map (entryValues ·.root)

/-- The table that a text is. -/
def read? (text : String) : Option (List (String × Value)) := readChars? text.toList

end ZigbeeGateway.Toml
