-- Settings as a text of some format gives them: what stands under each name, and how a
-- setting is made of it. A setting that is left out has its default; one of the wrong kind is
-- refused.
namespace ZigbeeGateway.Settings

/-- What stands under a name, as far as settings care. -/
inductive Entry where
  | null
  | text (s : String)
  | whole (n : Int)
  | flag (b : Bool)
  | other
deriving DecidableEq, Repr

/-- What stands under each name of a section. -/
abbrev Section := List (String × Entry)

namespace Section

/-- What stands under a name. -/
def entry? (s : Section) (name : String) : Option Entry := (s.find? (·.1 == name)).map (·.2)

/-- A text. -/
def text? (s : Section) (name default : String) : Option String :=
  match s.entry? name with
  | none => some default
  | some (.text t) => some t
  | some _ => none

/-- A text that may be missing. -/
def optionalText? (s : Section) (name : String) : Option (Option String) :=
  match s.entry? name with
  | none => some none
  | some .null => some none
  | some (.text t) => some (some t)
  | some _ => none

/-- A whole number from zero to below `limit`. -/
def number? (s : Section) (name : String) (limit default : Nat) : Option Nat :=
  match s.entry? name with
  | none => some default
  | some (.whole n) => if 0 ≤ n ∧ n < limit then some n.toNat else none
  | some _ => none

/-- Yes or no. -/
def flag? (s : Section) (name : String) (default : Bool) : Option Bool :=
  match s.entry? name with
  | none => some default
  | some (.flag b) => some b
  | some _ => none

end Section

end ZigbeeGateway.Settings
