-- Tables again, with indexes that hold the places of entries. Every read at a place is checked:
-- nothing comes of a place behind the last entry.
import ZigbeeGateway.Schema.Table
namespace ZigbeeGateway

/-- Entries in the order in which they came, and two indexes to their places. -/
structure PlacedTable (α : Type) where
  entries : List α
  byId : Std.TreeMap Nat Nat
  byName : Std.TreeMap String Nat

namespace PlacedTable

variable {α : Type}

/-- The table without entries. -/
def empty : PlacedTable α := ⟨[], ∅, ∅⟩

/-- The entry at the place that an index gives, if it gives one. -/
def at? (t : PlacedTable α) : (place : Option Nat) → Option (Option α)
  | none => some none
  | some i => t.entries[i]?.map some

/-- The entry with a number. -/
def withId? (t : PlacedTable α) (id : Nat) : Option (Option α) := t.at? t.byId[id]?

/-- The entry with a name. -/
def withName? (t : PlacedTable α) (name : String) : Option (Option α) := t.at? t.byName[name]?

/-- Adds an entry at the end, or tells why it is refused. -/
def add? [Entry α] (t : PlacedTable α) (x : α) : Option (Option SchemaError × PlacedTable α) :=
  match t.byId[Entry.id x]? with
  | some i => do
    let old ← t.entries[i]?
    return (some (.duplicateId (Entry.id x) (Entry.name x) (Entry.name old)), t)
  | none =>
    if t.byName.contains (Entry.name x) then
      return (some (.duplicateName (Entry.name x) (Entry.id x)), t)
    else
      let place := t.entries.length
      return (none, ⟨t.entries ++ [x], t.byId.insert (Entry.id x) place,
        t.byName.insert (Entry.name x) place⟩)

/-- Offers entries to a table one after the other. Gives the answers and the table after them. -/
def offer? [Entry α] (t : PlacedTable α) :
    List α → Option (List (Option SchemaError) × PlacedTable α)
  | [] => some ([], t)
  | x :: xs => do
    let (answer, t) ← t.add? x
    let (answers, t) ← t.offer? xs
    return (answer :: answers, t)

end PlacedTable

end ZigbeeGateway
