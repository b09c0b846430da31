-- What a value is once it has been JSON text. JSON has neither NaN nor infinities, it does not
-- tell the two kinds of whole numbers apart, and the members of an object are set one by one.
import ZigbeeGateway.Proofs.Fields
import ZigbeeGateway.Value
namespace ZigbeeGateway.Value

mutual

/-- The value that the JSON text of a value means. -/
def asJson : Value → Value
  | null => null
  | bool b => bool b
  | int n => int n
  | uint n => ofNat n.toNat
  | float x =>
    if x.isNaN then null
    else if x.isInfinite then text (if x.isNegative then "-inf" else "inf")
    else float x
  | text s => text s
  | list items => list (itemsAsJson items)
  | record fields => record (Fields.ofList (fieldsAsJson fields))

def itemsAsJson : List Value → List Value
  | [] => []
  | v :: vs => v.asJson :: itemsAsJson vs

def fieldsAsJson : List (String × Value) → List (String × Value)
  | [] => []
  | (name, v) :: rest => (name, v.asJson) :: fieldsAsJson rest

end

theorem itemsAsJson_eq (items : List Value) : itemsAsJson items = items.map asJson := by
  induction items with
  | nil => rfl
  | cons v vs ih => rw [itemsAsJson, ih, List.map_cons]

theorem fieldsAsJson_eq (fields : Fields Value) :
    fieldsAsJson fields = fields.map fun entry => (entry.1, entry.2.asJson) := by
  induction fields with
  | nil => rfl
  | cons entry rest ih => rw [fieldsAsJson, ih, List.map_cons]

theorem asJson_list (items : List Value) : (list items).asJson = list (items.map asJson) := by
  rw [asJson, itemsAsJson_eq]

theorem asJson_record {fields : Fields Value} (h : fields.Sorted) :
    (record fields).asJson = record (fields.map fun entry => (entry.1, entry.2.asJson)) := by
  rw [asJson, fieldsAsJson_eq, Fields.ofList_of_sorted (Fields.sorted_map asJson h)]

theorem asJson_ofFields (entries : List (String × Value)) :
    (ofFields entries).asJson = ofFields (entries.map fun entry => (entry.1, entry.2.asJson)) := by
  rw [ofFields, asJson_record (Fields.sorted_ofList entries), ofFields, Fields.ofList_map]

theorem asJson_ofNat {n : Nat} (h : n < UInt64.size) : (ofNat n).asJson = ofNat n := by
  unfold ofNat
  split
  · rfl
  · rename_i hlarge
    rw [asJson, UInt64.toNat_ofNat_of_lt' h, ofNat, if_neg hlarge]

theorem asJson_ofByte (b : UInt8) : (ofByte b).asJson = ofByte b :=
  asJson_ofNat (Nat.lt_trans b.toNat_lt (by decide))

theorem asJson_ofBytes (bs : Bytes) : (ofBytes bs).asJson = ofBytes bs := by
  rw [ofBytes, asJson_list, List.map_map]
  congr 2
  exact funext asJson_ofByte

end ZigbeeGateway.Value
