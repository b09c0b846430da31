-- The tables of a TOML text. A table comes into being by its header, as a part of the path
-- of another header, or as a part of a dotted key; what may still be added to it depends on
-- which of these it was.
namespace ZigbeeGateway.Toml

/-- A value. No setting is a float or a time, so which one it is is not kept. -/
inductive Value where
  | text (s : String)
  | integer (n : Int)
  | float
  | boolean (b : Bool)
  | time
  | array (items : List Value)
  | table (entries : List (String × Value))
deriving Repr, Inhabited

/-- How a table came into being. -/
inductive Origin where
  | header
  /-- As a part of the path of a header. -/
  | path
  /-- As a part of a dotted key. -/
  | dotted
deriving DecidableEq, Repr

/-- What stands under a key while a text is read. -/
inductive Item where
  | value (v : Value)
  | table (origin : Origin) (entries : List (String × Item))
  /-- Tables that share a header in double brackets, all but the last, and the last. -/
  | tables (before : List (List (String × Item))) (last : List (String × Item))
deriving Inhabited

/-- What stands under the keys of a table. -/
abbrev Entries := List (String × Item)

namespace Entries

/-- What stands under a key. -/
def get? (key : String) (entries : Entries) : Option Item :=
  (entries.find? (·.1 == key)).map (·.2)

/-- Puts something under a key, in place of what stood there or at the end. -/
def set (key : String) (item : Item) : Entries → Entries
  | [] => [(key, item)]
  | (k, old) :: rest => if k = key then (key, item) :: rest else (k, old) :: set key item rest

/-- Changes the table at the end of a path. Missing tables on the way come into being. A dotted key
does not lead through a table that has a header. -/
def update (dotted : Bool) (change : Origin → Entries → Option Entries) :
    (path : List String) → Origin → Entries → Option Entries
  | [], origin, entries => change origin entries
  | key :: path, _, entries =>
    let origin := if dotted then Origin.dotted else Origin.path
    match entries.get? key with
    | none => do return entries.set key (.table origin (← update dotted change path origin []))
    | some (.value _) => none
    | some (.tables before last) => do
      return entries.set key (.tables before (← update dotted change path .header last))
    | some (.table origin sub) =>
      if dotted && origin == .header then none
      else do return entries.set key (.table origin (← update dotted change path origin sub))

/-- Adds a value under a key that must be new. -/
def addNew (key : String) (v : Value) (entries : Entries) : Option Entries :=
  match entries.get? key with
  | none => some (entries.set key (.value v))
  | some _ => none

/-- Adds a value under a key with dots: a path and the last part. The table at the end of the path
must be one of dotted keys. -/
def addValue (path : List String) (key : String) (v : Value) (entries : Entries) :
    Option Entries :=
  if path.isEmpty then entries.addNew key v
  else entries.update true (fun origin es => if origin = .dotted then es.addNew key v else none)
    path .header

/-- Opens a table by its header. One that has been a part of a path only may still get a header. -/
def openTable (key : String) (entries : Entries) : Option Entries :=
  match entries.get? key with
  | none => some (entries.set key (.table .header []))
  | some (.table .path sub) => some (entries.set key (.table .header sub))
  | _ => none

/-- Opens one more table by a header in double brackets. -/
def openNext (key : String) (entries : Entries) : Option Entries :=
  match entries.get? key with
  | none => some (entries.set key (.tables [] []))
  | some (.tables before last) => some (entries.set key (.tables (before ++ [last]) []))
  | _ => none

end Entries

mutual

/-- The value of an item. -/
def Item.toValue : Item → Value
  | .value v => v
  | .table _ entries => .table (entryValues entries)
  | .tables before last => .array (tableValues before ++ [.table (entryValues last)])

/-- The values under the keys of a table. -/
def entryValues : List (String × Item) → List (String × Value)
  | [] => []
  | (key, item) :: rest => (key, item.toValue) :: entryValues rest

/-- The values of tables. -/
def tableValues : List (List (String × Item)) → List Value
  | [] => []
  | entries :: rest => .table (entryValues entries) :: tableValues rest

end

end ZigbeeGateway.Toml
