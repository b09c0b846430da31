-- The fields of a record: values by name, in increasing order of the names.
namespace ZigbeeGateway

/-- Named fields in increasing order of their names. -/
abbrev Fields (α : Type) := List (String × α)

namespace Fields

variable {α : Type}

/-- Sets a field, in its place by name; a field of that name is replaced. -/
def set (name : String) (x : α) : Fields α → Fields α
  | [] => [(name, x)]
  | (n, y) :: rest =>
    if name = n then (name, x) :: rest
    else if name < n then (name, x) :: (n, y) :: rest
    else (n, y) :: set name x rest

/-- Fields given in any order; of two with one name the later one stands. -/
def ofList (entries : List (String × α)) : Fields α :=
  entries.foldl (fun fields (name, x) => set name x fields) []

/-- The field of a name. -/
def get? (name : String) : Fields α → Option α
  | [] => none
  | (n, x) :: rest => if name = n then some x else get? name rest

theorem get?_set (name other : String) (x : α) (fields : Fields α) :
    get? other (set name x fields) = if other = name then some x else get? other fields := by
  induction fields with
  | nil => simp [set, get?]
  | cons entry rest ih =>
    obtain ⟨n, y⟩ := entry
    simp only [set]
    grind [get?]

end Fields

end ZigbeeGateway
