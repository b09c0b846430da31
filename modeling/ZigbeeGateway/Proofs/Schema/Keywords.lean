-- Types in a schema: each is written as a keyword, wrappers in front, and an object has its
-- properties in the block. The type is read back from both.
import ZigbeeGateway.Schema.Load
namespace ZigbeeGateway

open Info (Node)

namespace PayloadType

/-- The keyword of a type. -/
def keyword : PayloadType → String
  | variant => "variant"
  | scalar t => t.name
  | object _ => "object"
  | repeated item => "repeated:" ++ item.keyword
  | errorOr inner => "error_or:" ++ inner.keyword

/-- The properties that go into the block of a type. -/
def fields : PayloadType → Properties
  | variant => []
  | scalar _ => []
  | object properties => properties
  | repeated item => item.fields
  | errorOr inner => inner.fields

/-- What is left of a type without the wrappers around it. -/
def core : PayloadType → PayloadType
  | repeated item => item.core
  | errorOr inner => inner.core
  | type => type

/-- The wrappers around a type, outermost first. -/
def wrappers : PayloadType → List Wrapper
  | repeated item => .repeated :: item.wrappers
  | errorOr inner => .errorOr :: inner.wrappers
  | _ => []

theorem wrap_core : ∀ type : PayloadType, wrap type.wrappers type.core = type
  | variant | scalar _ | object _ => rfl
  | repeated item => congrArg repeated item.wrap_core
  | errorOr inner => congrArg errorOr inner.wrap_core

theorem core_fields : ∀ type : PayloadType, type.core.fields = type.fields
  | variant | scalar _ | object _ => rfl
  | repeated item => item.core_fields
  | errorOr inner => inner.core_fields

theorem core_cases : ∀ type : PayloadType,
    type.core = variant ∨ (∃ t, type.core = scalar t) ∨ ∃ ps, type.core = object ps
  | variant => .inl rfl
  | scalar t => .inr (.inl ⟨t, rfl⟩)
  | object ps => .inr (.inr ⟨ps, rfl⟩)
  | repeated item => item.core_cases
  | errorOr inner => inner.core_cases

end PayloadType

/-! ## Keywords -/

/-- Every datatype is a keyword of its own, for which no other word of a schema stands. -/
theorem Datatype.name_apart (t : Datatype) :
    t.name ≠ "object" ∧ t.name ≠ "repeated" ∧ t.name ≠ "variant" ∧ t.name ≠ "attribute" ∧
      unwrap t.name.toList = ([], t.name.toList) := by
  have h : ∀ t ∈ Datatype.all, t.name ≠ "object" ∧ t.name ≠ "repeated" ∧ t.name ≠ "variant" ∧
      t.name ≠ "attribute" ∧ unwrap t.name.toList = ([], t.name.toList) := by decide +kernel
  exact h t (mem_all t)

theorem leafType?_name (t : Datatype) : leafType? t.name = some (.scalar t) := by
  obtain ⟨-, -, hvariant, hattribute, -⟩ := t.name_apart
  unfold leafType?
  rw [if_neg hvariant, if_neg hattribute, Datatype.ofName?_name]
  rfl

theorem unwrap_repeated (cs : List Char) :
    unwrap ("repeated:".toList ++ cs) = (.repeated :: (unwrap cs).1, (unwrap cs).2) := rfl

theorem unwrap_errorOr (cs : List Char) :
    unwrap ("error_or:".toList ++ cs) = (.errorOr :: (unwrap cs).1, (unwrap cs).2) := rfl

theorem unwrap_keyword :
    ∀ type : PayloadType, unwrap type.keyword.toList = (type.wrappers, type.core.keyword.toList)
  | .variant => by decide
  | .scalar t => t.name_apart.2.2.2.2
  | .object _ => (by decide : unwrap "object".toList = ([], "object".toList))
  | .repeated item => by
    rw [PayloadType.keyword, String.toList_append, unwrap_repeated, unwrap_keyword item]
    rfl
  | .errorOr inner => by
    rw [PayloadType.keyword, String.toList_append, unwrap_errorOr, unwrap_keyword inner]
    rfl

/-! ## Blocks -/

/-- The entries of a block that name properties in their order. -/
inductive Declares : List Node → Properties → Prop
  | nil : Declares [] []
  | cons {line : Nat} {name : String} {type : PayloadType} {block nodes : List Node}
      {ps : Properties} :
      Declares block type.fields → Declares nodes ps →
      Declares (⟨line, type.keyword, name, block⟩ :: nodes) ((name, type) :: ps)

theorem Declares.eq_nil {nodes : List Node} (h : Declares nodes []) : nodes = [] := by
  cases h
  rfl

theorem propertyType_keyword {owner name : String} {line : Nat} {type : PayloadType}
    {block : List Node} (hblock : Declares block type.fields)
    (hread : properties name block = .ok type.fields) :
    propertyType owner ⟨line, type.keyword, name, block⟩ = .ok type := by
  have hwrap := type.wrap_core
  rw [← type.core_fields] at hblock hread
  unfold propertyType
  rw [unwrap_keyword]
  simp only [String.ofList_toList]
  rcases type.core_cases with h | ⟨t, h⟩ | ⟨ps, h⟩ <;> rw [h] at hblock hread hwrap ⊢
  · obtain rfl := hblock.eq_nil
    exact congrArg Except.ok hwrap
  · obtain rfl := hblock.eq_nil
    obtain ⟨hobject, hrepeated, -⟩ := t.name_apart
    rw [PayloadType.keyword, if_neg hobject, if_neg hrepeated, leafType?_name]
    exact congrArg Except.ok hwrap
  · rw [PayloadType.keyword, if_pos rfl, hread]
    exact congrArg Except.ok hwrap

theorem properties_of_declares {nodes : List Node} {ps : Properties} (h : Declares nodes ps)
    (owner : String) : properties owner nodes = .ok ps := by
  induction h generalizing owner with
  | nil => rfl
  | @cons line name type block nodes ps hblock h ihblock ih =>
    rw [properties, propertyType_keyword hblock (ihblock name), ih owner]
    rfl

end ZigbeeGateway
