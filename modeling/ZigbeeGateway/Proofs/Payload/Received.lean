-- Objects as they come in. The bytes of an object are those of its properties one after the other,
-- each property is read from its own bytes, and a list of objects is cut into one piece for each.
import ZigbeeGateway.Proofs.Payload.Checks
import ZigbeeGateway.Proofs.Payload.Repetition
namespace ZigbeeGateway

/-! ## Properties and objects -/

/-- A property as it came in: bytes that are read as its value, all of them. -/
structure ReceivedProperty (cluster : Option Cluster) where
  name : String
  type : PayloadType
  bytes : Bytes
  value : Value
  reads : type.decode cluster bytes = .ok (value, [])

namespace ReceivedProperty

variable {cluster : Option Cluster}

def property (p : ReceivedProperty cluster) : String × PayloadType := (p.name, p.type)

def field (p : ReceivedProperty cluster) : String × Value := (p.name, p.value)

end ReceivedProperty

/-- An object as it came in, with its properties in turn. -/
structure ReceivedObject (cluster : Option Cluster) (properties : Properties) where
  parts : List (ReceivedProperty cluster)
  complete : parts.map ReceivedProperty.property = properties

namespace ReceivedObject

variable {cluster : Option Cluster} {properties : Properties}

/-- The bytes of an object. -/
def bytes (object : ReceivedObject cluster properties) : Bytes :=
  (object.parts.map ReceivedProperty.bytes).flatten

/-- The record that an object is read as. -/
def value (object : ReceivedObject cluster properties) : Value :=
  .ofFields (object.parts.map ReceivedProperty.field)

theorem names_eq (object : ReceivedObject cluster properties) :
    (object.parts.map ReceivedProperty.field).map Prod.fst = properties.map Prod.fst := by
  have hnames := congrArg (List.map Prod.fst) object.complete
  rw [List.map_map] at hnames ⊢
  exact hnames

/-- Every property has come in, and it is found in the record under its name. -/
theorem exists_part (object : ReceivedObject cluster properties)
    (hnames : (properties.map Prod.fst).Nodup) {name : String} {type : PayloadType}
    (h : (name, type) ∈ properties) :
    ∃ part ∈ object.parts, part.property = (name, type) ∧
      object.value.get? name = some part.value := by
  rw [← object.complete] at h
  obtain ⟨part, hpart, hproperty⟩ := List.mem_map.mp h
  refine ⟨part, hpart, hproperty, ?_⟩
  have hname : part.name = name := congrArg Prod.fst hproperty
  subst hname
  apply Fields.get?_ofList
  · rw [object.names_eq]
    exact hnames
  · exact List.mem_map_of_mem hpart

/-- A property with a repetition is the last one, so its bytes go up to the end. -/
theorem exists_front (object : ReceivedObject cluster properties)
    (hcheck : (PayloadType.object properties).check = .ok ()) {part : ReceivedProperty cluster}
    (hpart : part ∈ object.parts) (hrepeated : part.type.hasRepeated = true) :
    ∃ front, object.bytes = front ++ part.bytes := by
  obtain ⟨before, after, hparts⟩ := List.append_of_mem hpart
  have hproperties := object.complete
  rw [hparts, List.map_append, List.map_cons] at hproperties
  subst hproperties
  obtain ⟨names, hrest⟩ := PayloadType.checkProperties_append hcheck
  obtain ⟨-, -, hlast⟩ := PayloadType.checkProperties_cons hrest
  obtain rfl : after = [] := List.map_eq_nil_iff.mp (hlast hrepeated)
  refine ⟨(before.map ReceivedProperty.bytes).flatten, ?_⟩
  simp [bytes, hparts]

end ReceivedObject

/-! ## What was read has come in -/

namespace PayloadType

open Reader

variable {cluster : Option Cluster} {type : PayloadType} {properties : Properties} {bs : Bytes}
  {room : Nat} {v : Value}

theorem exists_parts {before : List String} {fields fields' : Fields Value}
    (hroom : room ≤ maxNesting) (hcheck : checkProperties before properties = .ok ())
    (h : readProperties cluster room fields properties bs = .ok (fields', [])) :
    ∃ parts : List (ReceivedProperty cluster), parts.map ReceivedProperty.property = properties ∧
      bs = (parts.map ReceivedProperty.bytes).flatten ∧
      fields' = Fields.setAll (parts.map ReceivedProperty.field) fields := by
  induction properties generalizing before fields bs with
  | nil =>
    cases h
    exact ⟨[], rfl, rfl, rfl⟩
  | cons property rest ih =>
    obtain ⟨name, type⟩ := property
    obtain ⟨-, hrestcheck, hlast⟩ := checkProperties_cons hcheck
    obtain ⟨v, mid, hv, hrest⟩ := bind_eq_ok h
    obtain ⟨parts, hproperties, hmid, hfields⟩ := ih hrestcheck hrest
    -- only the last property may go up to the end, so this one has bytes of its own
    have hown : ∃ c, bs = c ++ mid ∧ type.read cluster room c = .ok (v, []) := by
      cases hrepeated : type.hasRepeated with
      | true =>
        have hnone := hlast hrepeated
        subst hnone
        cases hrest
        exact ⟨bs, (List.append_nil bs).symm, hv⟩
      | false =>
        obtain ⟨c, hc, hdelimits⟩ := selfDelimiting_read cluster room type hrepeated bs v mid hv
        have hfull := hdelimits.full []
        rw [List.append_nil] at hfull
        exact ⟨c, hc, hfull⟩
    obtain ⟨c, rfl, hc⟩ := hown
    refine ⟨⟨name, type, c, v, decode_of_read hroom hc⟩ :: parts, ?_, ?_, hfields⟩
    · rw [List.map_cons, hproperties]
      rfl
    · rw [hmid]
      rfl

/-- What is read as an object has come in property by property. -/
theorem exists_object (hroom : room ≤ maxNesting) (hcheck : (object properties).check = .ok ())
    (h : (object properties).read cluster room bs = .ok (v, [])) :
    ∃ object : ReceivedObject cluster properties, object.bytes = bs ∧ object.value = v := by
  cases room with
  | zero => cases h
  | succ room =>
    obtain ⟨fields, hfields, rfl⟩ := map_eq_ok h
    obtain ⟨parts, hproperties, hbs, rfl⟩ := exists_parts (Nat.le_of_succ_le hroom) hcheck hfields
    exact ⟨⟨parts, hproperties⟩, hbs.symm, rfl⟩

/-- Pieces that are read one by one as objects have come in as objects. -/
theorem exists_delimited (hroom : room ≤ maxNesting) (hcheck : (object properties).check = .ok ())
    {pieces : List Bytes} {xs : List Value}
    (h : Delimited ((object properties).read cluster room) pieces xs) :
    ∃ objects : List (ReceivedObject cluster properties),
      pieces = objects.map ReceivedObject.bytes ∧ xs = objects.map ReceivedObject.value := by
  induction h with
  | nil => exact ⟨[], rfl, rfl⟩
  | cons hpiece _ ih =>
    have hread := hpiece.2.full []
    rw [List.append_nil] at hread
    obtain ⟨object, rfl, rfl⟩ := exists_object hroom hcheck hread
    obtain ⟨objects, rfl, rfl⟩ := ih
    exact ⟨object :: objects, rfl, rfl⟩

/-- What is read as a list of objects has come in object by object. -/
theorem exists_objects (hcheck : (repeated (object properties)).check = .ok ())
    (h : (repeated (object properties)).decode cluster bs = .ok (v, [])) :
    ∃ objects : List (ReceivedObject cluster properties),
      bs = (objects.map ReceivedObject.bytes).flatten ∧
        v = .list (objects.map ReceivedObject.value) := by
  obtain ⟨hflat, hobject⟩ := hasRepeated_repeated_of_check hcheck
  obtain ⟨xs, hxs, rfl⟩ := map_eq_ok h
  have hself := selfDelimiting_read cluster (maxNesting - 1) (object properties) hflat
  obtain ⟨-, pieces, rfl, hpieces⟩ := (untilEnd_eq_ok hself).mp hxs
  obtain ⟨objects, rfl, rfl⟩ := exists_delimited (by decide) hobject hpieces
  exact ⟨objects, rfl, rfl⟩

end PayloadType

end ZigbeeGateway
