-- Writing only ever adds to a buffer. Each writer of the library adds bytes that hang on the
-- value alone and never looks at the bytes before them, down to the point where it fails.
import ZigbeeGateway.Proofs.Payload.WriterRuns
namespace ZigbeeGateway

open Writer

/-! ## Datatypes -/

theorem additive_ite {p : Prop} [Decidable p] {w w' : Writer} (h : w.Additive)
    (h' : w'.Additive) : Additive (if p then w else w') := by
  split
  · exact h
  · exact h'

theorem additive_writeOrNull (t : Datatype) (width : Nat) (v : Value)
    (meaning : Except WriteError Nat) : (writeOrNull t width v meaning).Additive := by
  refine additive_ite (additive_number _ _) ?_
  split
  · exact additive_throw _
  · exact additive_ite (additive_throw _) (additive_number _ _)

theorem additive_writeFloat (t : Datatype) (layout : FloatLayout) (v : Value) :
    (writeFloat t layout v).Additive := by
  unfold writeFloat
  split
  · exact additive_number _ _
  · exact additive_throw _

theorem additive_writeBytes (t : Datatype) (count : Nat) (v : Value) :
    (writeBytes t count v).Additive := by
  unfold writeBytes
  split
  · exact additive_throw _
  · exact additive_ite (additive_eachByte _ _) (additive_throw _)

theorem additive_writeString (t : Datatype) (size : LengthSize) (v : Value) :
    (writeString t size v).Additive := by
  refine additive_ite (additive_number _ _) ?_
  split
  · exact additive_throw _
  · exact additive_ite (additive_throw _) ((additive_number _ _).then (additive_bytes _))

theorem additive_writeFields (t : Datatype) (fields : List (String × Int)) (v : Value) :
    (writeFields t fields v).Additive := by
  refine additive_ite (additive_bytes _) ?_
  split
  · exact additive_throw _
  · exact additive_eachByte _ _

theorem additive_writeBool (v : Value) : (writeBool v).Additive := by
  unfold writeBool
  split
  · exact additive_bytes _
  · exact additive_bytes _
  · exact additive_throw _

theorem additive_writeTag (t : Datatype) : (writeTag t).Additive := additive_bytes _

theorem additive_writeTagged {write : Datatype → Value → Writer}
    (h : ∀ t v, (write t v).Additive) (v : Value) : (writeTagged write v).Additive := by
  unfold writeTagged
  split
  · exact additive_writeTag _
  · split
    · exact additive_throw _
    · exact (additive_writeTag _).then (h _ _)
  · exact additive_throw _

theorem additive_writeItems {item : Value → Writer} (h : ∀ v, (item v).Additive)
    (tooMany mismatch : WriteError) (v : Value) :
    (writeItems item tooMany mismatch v).Additive := by
  unfold writeItems
  split
  · exact additive_number _ _
  · exact additive_ite (additive_throw _) ((additive_number _ _).then (additive_each h _))
  · exact additive_throw _

theorem additive_writeFlat (cluster : Option Cluster) (t : Datatype) (v : Value) :
    (t.writeFlat cluster v).Additive := by
  cases t with
  | data w => exact additive_writeBytes _ _ _
  | key128 => exact additive_writeBytes _ _ _
  | bool => exact additive_writeBool _
  | semi => exact additive_writeFloat _ _ _
  | single => exact additive_writeFloat _ _ _
  | double => exact additive_writeFloat _ _ _
  | octets size => exact additive_writeString _ _ _
  | text size => exact additive_writeString _ _ _
  | timeOfDay => exact additive_writeFields _ _ _
  | date => exact additive_writeFields _ _ _
  | noData => exact additive_ite additive_pure (additive_throw _)
  | unknown => exact additive_ite additive_pure (additive_throw _)
  | sequence kind => exact additive_ite additive_pure (additive_throw _)
  | struct => exact additive_ite additive_pure (additive_throw _)
  | _ => exact additive_writeOrNull _ _ _ _

theorem additive_datatype (cluster : Option Cluster) (room : Nat) (t : Datatype) (v : Value) :
    (t.write cluster room v).Additive := by
  induction room generalizing t v with
  | zero =>
    cases t with
    | sequence kind => exact additive_throw _
    | struct => exact additive_throw _
    | _ => exact additive_writeFlat cluster _ v
  | succ room ih =>
    cases t with
    | sequence kind =>
      rw [Datatype.write]
      split
      · exact additive_throw _
      · exact (additive_writeTag _).then (additive_writeItems (ih _) _ _ _)
    | struct => exact additive_writeItems (additive_writeTagged ih) _ _ _
    | _ => exact additive_writeFlat cluster _ v

/-! ## Payload types -/

namespace PayloadType

/-- What follows a status of zero. -/
def writeSuccess (cluster : Option Cluster) (room : Nat) (inner : PayloadType) (v : Value) :
    Writer :=
  match room with
  | 0 => throw .nestingTooDeep
  | room + 1 => Writer.inside "value" (inner.write cluster room (v.getOrNull "value"))

theorem write_errorOr {cluster : Option Cluster} {room : Nat} {inner : PayloadType} {v : Value}
    {status : UInt8} (h : (errorOr inner).statusOf v = .ok status) :
    (errorOr inner).write cluster room v = (do
      Writer.bytes [status]
      if status ≠ 0 then pure () else writeSuccess cluster room inner v) := by
  unfold write
  simp only [h]
  rfl

theorem write_errorOr_of_error {cluster : Option Cluster} {room : Nat} {inner : PayloadType}
    {v : Value} {e : WriteError} (h : (errorOr inner).statusOf v = .error e) :
    (errorOr inner).write cluster room v = throw e := by
  unfold write
  simp only [h]

mutual

theorem additive_write (cluster : Option Cluster) (room : Nat) (type : PayloadType) (v : Value) :
    (type.write cluster room v).Additive := by
  match room, type with
  | room, variant => exact additive_writeTagged (additive_datatype cluster room) v
  | room, scalar t => exact additive_datatype cluster room t v
  | 0, object _ => exact additive_throw _
  | room + 1, object properties =>
    rw [write]
    split
    · exact additive_throw _
    · exact additive_writeProperties cluster room v properties
  | 0, repeated _ => exact additive_throw _
  | room + 1, repeated item =>
    rw [write]
    split
    · exact additive_throw _
    · exact additive_each (additive_write cluster room item) _
  | room, errorOr inner =>
    rcases hstatus : (errorOr inner).statusOf v with e | status
    · rw [write_errorOr_of_error hstatus]
      exact additive_throw e
    · rw [write_errorOr hstatus]
      refine (additive_bytes _).then (additive_ite additive_pure ?_)
      match room with
      | 0 => exact additive_throw _
      | room + 1 => exact (additive_write cluster room inner _).inside "value"

theorem additive_writeProperties (cluster : Option Cluster) (room : Nat) (v : Value)
    (properties : List (String × PayloadType)) :
    (writeProperties cluster room v properties).Additive := by
  match properties with
  | [] => exact additive_pure
  | (name, type) :: rest =>
    exact ((additive_write cluster room type _).inside name).then
      (additive_writeProperties cluster room v rest)

end

theorem additive_writeSuccess (cluster : Option Cluster) (room : Nat) (inner : PayloadType)
    (v : Value) : (writeSuccess cluster room inner v).Additive := by
  cases room with
  | zero => exact additive_throw _
  | succ room => exact (additive_write cluster room inner _).inside "value"

/-- The bytes of a value are those that its writer adds to any buffer. -/
theorem encode_eq_ok {cluster : Option Cluster} {type : PayloadType} {v : Value} {bs : Bytes} :
    type.encode cluster v = .ok bs ↔ (type.write cluster maxNesting v).Writes bs :=
  toBytes_eq_ok (additive_write cluster maxNesting type v)

/-! ## The law -/

/-- However much room there is, a value leaves its bytes behind what the buffer held, or it leaves
the buffer as it was. -/
theorem onto_write (cluster : Option Cluster) (room : Nat) (type : PayloadType) (v : Value)
    (out : Array UInt8) :
    let w := type.write cluster room v
    (∃ b, w.toBytes = .ok b ∧ w.onto out = (.ok (), out ++ b)) ∨
      ∃ e, w.toBytes = .error e ∧ w.onto out = (.error e, out) := by
  intro w
  obtain ⟨e | ⟨⟩, bs, hw⟩ := additive_write cluster room type v
  · right
    exact ⟨e, hw.toBytes, hw.onto_error out⟩
  · left
    exact ⟨bs, hw.toBytes, Writes.onto hw out⟩

/-- All of a value is added to a buffer or nothing. Behind whatever the buffer held stand the bytes
that the value has by itself, or the value is refused in the way that it is by itself and the buffer
is as it was. -/
theorem all_of_a_value_is_added_or_nothing (cluster : Option Cluster) (type : PayloadType)
    (v : Value) (out : Array UInt8) :
    (∃ b, type.encode cluster v = .ok b ∧ type.encodeOnto cluster v out = (.ok (), out ++ b)) ∨
      ∃ e, type.encode cluster v = .error e ∧ type.encodeOnto cluster v out = (.error e, out) := by
  unfold encode encodeOnto
  exact onto_write cluster maxNesting type v out

/-- Two properties are added behind what is there. If the second one is refused, the first one is
taken back. -/
example :
    let type := object [("a", scalar (.unsigned 0)), ("b", scalar (.unsigned 0))]
    let good := Value.ofFields [("a", .int 1), ("b", .int 2)]
    let bad := Value.ofFields [("a", .int 1), ("b", .text "x")]
    (type.encodeOnto none good #[0xaa]).2 = #[0xaa, 0x01, 0x02] ∧
      (type.encodeOnto none bad #[0xaa]).2 = #[0xaa] := by
  exact ⟨rfl, rfl⟩

end PayloadType

end ZigbeeGateway
