-- What the check of a payload type stands for. A type that passes it is regular at every depth:
-- names are distinct in each object, and a repetition stands where only the end of the message
-- ends it.
import Mathlib.Data.List.Nodup
import ZigbeeGateway.Payload.Type
namespace ZigbeeGateway.PayloadType

/-! ## One step of the check -/

theorem names_of_check {before : List String} {properties : Properties}
    (h : checkProperties before properties = .ok ()) :
    (properties.map Prod.fst).Nodup ∧ ∀ name ∈ before, name ∉ properties.map Prod.fst := by
  induction properties generalizing before with
  | nil => exact ⟨List.nodup_nil, fun _ _ => List.not_mem_nil⟩
  | cons property rest ih =>
    obtain ⟨name, type⟩ := property
    rw [checkProperties] at h
    split at h
    · cases h
    · rename_i hname
      split at h
      · cases h
      · split at h
        · cases h
        · obtain ⟨hnodup, hbefore⟩ := ih h
          rw [List.map_cons, List.nodup_cons]
          refine ⟨⟨hbefore name List.mem_cons_self, hnodup⟩, fun other hother => ?_⟩
          rw [List.mem_cons, not_or]
          refine ⟨?_, hbefore other (List.mem_cons_of_mem _ hother)⟩
          rintro rfl
          exact hname (List.contains_iff_mem.mpr hother)

theorem checkProperties_cons {before : List String} {name : String} {type : PayloadType}
    {rest : Properties} (h : checkProperties before ((name, type) :: rest) = .ok ()) :
    type.check = .ok () ∧ checkProperties (name :: before) rest = .ok () ∧
      (type.hasRepeated = true → rest = []) := by
  rw [checkProperties] at h
  split at h
  · cases h
  · split at h
    · cases h
    · rename_i hlast
      split at h
      · cases h
      · rename_i hcheck
        refine ⟨hcheck, h, fun hrepeated => ?_⟩
        rw [hrepeated, Bool.true_and, Bool.not_eq_true', Bool.not_eq_false] at hlast
        exact List.isEmpty_iff.mp hlast

theorem hasRepeated_repeated_of_check {item : PayloadType}
    (h : (repeated item).check = .ok ()) : item.hasRepeated = false ∧ item.check = .ok () := by
  rw [check] at h
  split at h
  · cases h
  · rename_i hitem
    exact ⟨Bool.not_eq_true _ ▸ hitem, h⟩

theorem checkProperties_append {before : List String} {front back : Properties}
    (h : checkProperties before (front ++ back) = .ok ()) :
    ∃ before', checkProperties before' back = .ok () := by
  induction front generalizing before with
  | nil => exact ⟨before, h⟩
  | cons property front ih =>
    obtain ⟨name, type⟩ := property
    obtain ⟨-, hrest, -⟩ := checkProperties_cons h
    exact ih hrest

/-! ## At every depth -/

/-- The types that stand in a type at any depth, itself included. -/
inductive Part (type : PayloadType) : PayloadType → Prop
  | self : Part type type
  | property {properties : Properties} {property : String × PayloadType} :
      Part type (object properties) → property ∈ properties → Part type property.2
  | item {item : PayloadType} : Part type (repeated item) → Part type item
  | inner {inner : PayloadType} : Part type (errorOr inner) → Part type inner

/-- A repetition stands in a type, at any depth. -/
def Repeats (type : PayloadType) : Prop := ∃ item, Part type (repeated item)

/-- At every depth the properties of an object have distinct names, no repetition stands inside
another, and no property stands behind one with a repetition. -/
structure Regular (type : PayloadType) : Prop where
  names : ∀ properties, Part type (object properties) → (properties.map Prod.fst).Nodup
  flat : ∀ item, Part type (repeated item) → ¬ item.Repeats
  last : ∀ front property back, Part type (object (front ++ property :: back)) →
    property.2.Repeats → back = []

variable {type part : PayloadType}

theorem anyRepeated_of_mem {properties : Properties} {property : String × PayloadType}
    (h : property ∈ properties) (hrepeated : property.2.hasRepeated = true) :
    anyRepeated properties = true := by
  induction properties with
  | nil => cases h
  | cons first rest ih =>
    obtain ⟨name, type⟩ := first
    rw [anyRepeated, Bool.or_eq_true]
    rcases List.mem_cons.mp h with rfl | h
    · exact .inl hrepeated
    · exact .inr (ih h)

theorem Part.hasRepeated (h : Part type part) (hpart : part.hasRepeated = true) :
    type.hasRepeated = true := by
  induction h with
  | self => exact hpart
  | property _ hmem ih => exact ih (anyRepeated_of_mem hmem hpart)
  | item _ ih => exact ih rfl
  | inner _ ih => exact ih hpart

theorem Repeats.hasRepeated (h : type.Repeats) : type.hasRepeated = true := by
  obtain ⟨item, hitem⟩ := h
  exact hitem.hasRepeated rfl

theorem check_of_mem {before : List String} {properties : Properties}
    {property : String × PayloadType} (h : checkProperties before properties = .ok ())
    (hmem : property ∈ properties) : property.2.check = .ok () := by
  obtain ⟨front, back, rfl⟩ := List.append_of_mem hmem
  obtain ⟨before', hback⟩ := checkProperties_append h
  exact (checkProperties_cons hback).1

/-- What stands in a type that passes its check passes it as well. -/
theorem Part.check (h : Part type part) (htype : type.check = .ok ()) : part.check = .ok () := by
  induction h with
  | self => exact htype
  | property _ hmem ih => exact check_of_mem ih hmem
  | item _ ih => exact (hasRepeated_repeated_of_check ih).2
  | inner _ ih => exact ih

theorem regular_of_check (h : type.check = .ok ()) : type.Regular where
  names properties hpart := by
    have hcheck : checkProperties [] properties = .ok () := hpart.check h
    exact (names_of_check hcheck).1
  flat item hpart hrepeats := by
    have hitem := (hasRepeated_repeated_of_check (hpart.check h)).1
    rw [hrepeats.hasRepeated] at hitem
    cases hitem
  last front property back hpart hrepeats := by
    have hcheck : checkProperties [] (front ++ property :: back) = .ok () := hpart.check h
    obtain ⟨before, hback⟩ := checkProperties_append hcheck
    exact (checkProperties_cons hback).2.2 hrepeats.hasRepeated

end ZigbeeGateway.PayloadType
