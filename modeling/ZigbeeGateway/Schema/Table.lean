-- Tables of things that have a number and a name. Both are unique in a table, and an entry
-- is found by either.
import Std.Data.TreeMap
import ZigbeeGateway.Schema.Error
namespace ZigbeeGateway

/-- A search for a key through entries and one more whose key is new. -/
theorem find?_snoc_of_none {α β : Type} [DecidableEq β] (key : α → β) (entries : List α) (x : α)
    (h : entries.find? (key · == key x) = none) (k : β) :
    (entries ++ [x]).find? (key · == k) =
      if k = key x then some x else entries.find? (key · == k) := by
  rw [List.find?_append]
  by_cases hk : k = key x
  · subst hk; simp [h]
  · have : (key x == k) = false := by simp; exact fun e => hk e.symm
    simp [hk, this]

/-- A search for the key of an entry finds that entry if no other has its key. -/
theorem find?_of_nodup {α β : Type} [DecidableEq β] (key : α → β) {entries : List α} {x : α}
    (h : (entries.map key).Nodup) (hx : x ∈ entries) :
    entries.find? (key · == key x) = some x := by
  induction entries with
  | nil => cases hx
  | cons y rest ih =>
    rw [List.map_cons, List.nodup_cons] at h
    rcases List.mem_cons.mp hx with rfl | hx
    · simp
    · have hne : key y ≠ key x := fun e => h.1 (e ▸ List.mem_map_of_mem hx)
      rw [List.find?_cons_of_neg (by simpa using hne)]
      exact ih h.2 hx

/-- Something that a table can hold. -/
class Entry (α : Type) where
  id : α → Nat
  name : α → String

/-- Entries in the order in which they came, with an index by number and one by name. -/
structure Table (α : Type) [Entry α] where
  entries : List α
  byId : Std.TreeMap Nat α
  byName : Std.TreeMap String α
  /-- The index by number finds what a search from the front finds. -/
  byId_eq : ∀ id, byId[id]? = entries.find? (Entry.id · == id)
  /-- The index by name finds what a search from the front finds. -/
  byName_eq : ∀ name, byName[name]? = entries.find? (Entry.name · == name)
  ids_nodup : (entries.map Entry.id).Nodup
  names_nodup : (entries.map Entry.name).Nodup

namespace Table

variable {α : Type} [Entry α]

/-- The table without entries. -/
def empty : Table α where
  entries := []
  byId := ∅
  byName := ∅
  byId_eq := by simp
  byName_eq := by simp
  ids_nodup := by simp
  names_nodup := by simp

instance : Inhabited (Table α) := ⟨empty⟩

/-- The entry with a number. -/
def withId? (t : Table α) (id : Nat) : Option α := t.byId[id]?

/-- The entry with a name. -/
def withName? (t : Table α) (name : String) : Option α := t.byName[name]?

def size (t : Table α) : Nat := t.entries.length

/-- Adds an entry at the end. A number or a name that the table has already is refused, the number
first. -/
def add (t : Table α) (x : α) : Except SchemaError (Table α) :=
  match hid : t.withId? (Entry.id x) with
  | some old => .error (.duplicateId (Entry.id x) (Entry.name x) (Entry.name old))
  | none =>
    match hname : t.withName? (Entry.name x) with
    | some _ => .error (.duplicateName (Entry.name x) (Entry.id x))
    | none =>
      have hid' : t.entries.find? (Entry.id · == Entry.id x) = none := by
        rw [← t.byId_eq]; exact hid
      have hname' : t.entries.find? (Entry.name · == Entry.name x) = none := by
        rw [← t.byName_eq]; exact hname
      .ok {
        entries := t.entries ++ [x]
        byId := t.byId.insert (Entry.id x) x
        byName := t.byName.insert (Entry.name x) x
        byId_eq := by
          intro id
          rw [find?_snoc_of_none Entry.id _ _ hid', Std.TreeMap.getElem?_insert, ← t.byId_eq]
          simp only [Std.compare_eq_iff_eq, eq_comm (b := Entry.id x)]
        byName_eq := by
          intro name
          rw [find?_snoc_of_none Entry.name _ _ hname', Std.TreeMap.getElem?_insert, ← t.byName_eq]
          simp only [Std.compare_eq_iff_eq, eq_comm (b := Entry.name x)]
        ids_nodup := by
          have := t.ids_nodup
          simp only [List.find?_eq_none, beq_iff_eq] at hid'
          simp only [List.map_append, List.map_cons, List.map_nil, List.nodup_append]
          grind
        names_nodup := by
          have := t.names_nodup
          simp only [List.find?_eq_none, beq_iff_eq] at hname'
          simp only [List.map_append, List.map_cons, List.map_nil, List.nodup_append]
          grind
      }

/-- Adds entries one after the other; the first that is refused ends it. -/
def ofList (xs : List α) : Except SchemaError (Table α) := xs.foldlM add empty

theorem withId?_eq (t : Table α) (id : Nat) :
    t.withId? id = t.entries.find? (Entry.id · == id) := t.byId_eq id

theorem withName?_eq (t : Table α) (name : String) :
    t.withName? name = t.entries.find? (Entry.name · == name) := t.byName_eq name

/-- An entry that is found by its number has it, and is also found by its name. -/
theorem withName?_of_withId? {t : Table α} {id : Nat} {x : α} (h : t.withId? id = some x) :
    Entry.id x = id ∧ t.withName? (Entry.name x) = some x := by
  rw [withId?_eq] at h
  have hid := List.find?_some h
  have hmem := List.mem_of_find?_eq_some h
  exact ⟨by simpa using hid, by rw [withName?_eq, find?_of_nodup Entry.name t.names_nodup hmem]⟩

end Table

end ZigbeeGateway
