-- Values that take no bytes. A type without repetitions decides by itself whether its values take
-- bytes: either all of them do or none does.
import ZigbeeGateway.Proofs.Payload.ReaderRuns
namespace ZigbeeGateway

variable {rc : Option Cluster}

/-! ## Readers that need a byte -/

/-- The reader needs at least one byte. -/
def Reader.Hungry {α : Type} (r : Reader α) : Prop := ∃ e, r [] = .error e

theorem Reader.Hungry.bind {α β : Type} {m : Reader α} (h : m.Hungry) (f : α → Reader β) :
    Reader.Hungry (m >>= f) := by
  obtain ⟨e, he⟩ := h
  exact ⟨e, Reader.bind_error he⟩

theorem Reader.Hungry.map {α β : Type} {m : Reader α} (h : m.Hungry) (g : α → β) :
    Reader.Hungry (g <$> m) := by
  rw [Reader.map_eq_bind]
  exact h.bind _

theorem Reader.Hungry.not_ok {α : Type} {r : Reader α} {x : α} {rest : Bytes} (h : r.Hungry) :
    r [] ≠ .ok (x, rest) := by
  obtain ⟨e, he⟩ := h
  rw [he]
  rintro ⟨⟩

theorem Reader.hungry_take {count : Nat} (h : 0 < count) : (Reader.take count).Hungry :=
  ⟨_, Reader.take_short h⟩

theorem Reader.hungry_number {width : Nat} (h : 0 < width) : (Reader.number width).Hungry :=
  (Reader.hungry_take h).map _

theorem Reader.hungry_byte : Reader.byte.Hungry := (Reader.hungry_number (by decide)).map _

theorem hungry_readTag : readTag.Hungry := Reader.hungry_byte.bind _

/-! ## Types whose values take no bytes -/

namespace Datatype

/-- Whether the values of a datatype take no bytes. -/
def takesNothing : Datatype → Bool
  | noData => true
  | unknown => true
  | _ => false

theorem hungry_readFlat {t : Datatype} (ht : t.takesNothing = false)
    (hsequence : ∀ kind, t ≠ sequence kind) (hstruct : t ≠ struct) : (t.readFlat rc).Hungry := by
  cases t with
  | noData => cases ht
  | unknown => cases ht
  | sequence kind => exact absurd rfl (hsequence kind)
  | struct => exact absurd rfl hstruct
  | data w => exact (Reader.hungry_take (Nat.succ_pos _)).map _
  | key128 => exact (Reader.hungry_take (by decide)).map _
  | semi => exact (Reader.hungry_number (by decide)).map _
  | single => exact (Reader.hungry_number (by decide)).map _
  | double => exact (Reader.hungry_number (by decide)).map _
  | timeOfDay => exact (Reader.hungry_take (by decide)).bind _
  | date => exact (Reader.hungry_take (by decide)).bind _
  | bool => exact Reader.hungry_byte.bind _
  | octets size => cases size <;> exact (Reader.hungry_number (by decide)).bind _
  | text size => cases size <;> exact (Reader.hungry_number (by decide)).bind _
  | bitmap w => exact (Reader.hungry_number (Nat.succ_pos _)).bind _
  | unsigned w => exact (Reader.hungry_number (Nat.succ_pos _)).bind _
  | signed w => exact (Reader.hungry_number (Nat.succ_pos _)).bind _
  | _ => exact (Reader.hungry_number (by decide)).bind _

theorem hungry_read (room : Nat) {t : Datatype} (ht : t.takesNothing = false) :
    (t.read rc room).Hungry := by
  cases room with
  | zero =>
    cases t with
    | sequence kind => exact ⟨_, rfl⟩
    | struct => exact ⟨_, rfl⟩
    | _ => exact hungry_readFlat ht (by simp) (by simp)
  | succ room =>
    cases t with
    | sequence kind => exact hungry_readTag.bind _
    | struct => exact (Reader.hungry_number (by decide)).bind _
    | _ => exact hungry_readFlat ht (by simp) (by simp)

theorem read_takesNothing {room : Nat} {t : Datatype} (ht : t.takesNothing = true) {v : Value}
    {bs rest : Bytes} (hr : t.read rc room bs = .ok (v, rest)) : rest = bs := by
  cases t with
  | noData =>
    cases room <;> cases hr <;> rfl
  | unknown =>
    cases room <;> cases hr <;> rfl
  | _ => cases ht

end Datatype

namespace PayloadType

mutual

/-- Whether the values of a type take no bytes. -/
def takesNothing : PayloadType → Bool
  | variant => false
  | scalar t => t.takesNothing
  | object properties => allTakeNothing properties
  | repeated _ => false
  | errorOr _ => false

def allTakeNothing : List (String × PayloadType) → Bool
  | [] => true
  | (_, type) :: rest => type.takesNothing && allTakeNothing rest

end

mutual

theorem read_takesNothing {room : Nat} {type : PayloadType} (ht : type.takesNothing = true)
    {v : Value} {bs rest : Bytes} (hr : type.read rc room bs = .ok (v, rest)) : rest = bs := by
  match room, type with
  | _, variant => cases ht
  | _, scalar t => exact Datatype.read_takesNothing ht hr
  | 0, object properties => cases hr
  | room + 1, object properties =>
    obtain ⟨fields, hfields, rfl⟩ := Reader.map_eq_ok hr
    exact readProperties_takesNothing ht hfields
  | _, repeated item => cases ht
  | _, errorOr inner => cases ht

theorem readProperties_takesNothing {room : Nat} {properties : Properties}
    (ht : allTakeNothing properties = true) {fields fields' : Fields Value} {bs rest : Bytes}
    (hr : readProperties rc room fields properties bs = .ok (fields', rest)) : rest = bs := by
  match properties with
  | [] =>
    cases hr
    rfl
  | (name, type) :: properties =>
    rw [allTakeNothing, Bool.and_eq_true] at ht
    obtain ⟨v, mid, hv, htail⟩ := Reader.bind_eq_ok hr
    rw [readProperties_takesNothing ht.2 htail, read_takesNothing ht.1 hv]

end

mutual

/-- Outside repetitions, a value that takes no bytes once never takes any. -/
theorem takesNothing_of_read_nil {room : Nat} {type : PayloadType}
    (hrepeated : type.hasRepeated = false) {v : Value} {rest : Bytes}
    (hr : type.read rc room [] = .ok (v, rest)) : type.takesNothing = true := by
  match room, type with
  | _, variant => exact absurd hr (hungry_readTag.bind _).not_ok
  | room, scalar t =>
    rw [takesNothing]
    cases ht : t.takesNothing with
    | true => rfl
    | false => exact absurd hr (Datatype.hungry_read room ht).not_ok
  | 0, object properties => cases hr
  | room + 1, object properties =>
    obtain ⟨fields, hfields, rfl⟩ := Reader.map_eq_ok hr
    exact allTakeNothing_of_read_nil hrepeated hfields
  | _, repeated item => cases hrepeated
  | _, errorOr inner => exact absurd hr (Reader.hungry_byte.bind _).not_ok

theorem allTakeNothing_of_read_nil {room : Nat} {properties : Properties}
    (hrepeated : anyRepeated properties = false) {fields fields' : Fields Value} {rest : Bytes}
    (hr : readProperties rc room fields properties [] = .ok (fields', rest)) :
    allTakeNothing properties = true := by
  match properties with
  | [] => rfl
  | (name, type) :: properties =>
    rw [anyRepeated, Bool.or_eq_false_iff] at hrepeated
    obtain ⟨v, mid, hv, htail⟩ := Reader.bind_eq_ok hr
    have htype := takesNothing_of_read_nil hrepeated.1 hv
    obtain rfl := read_takesNothing htype hv
    rw [allTakeNothing, htype, allTakeNothing_of_read_nil hrepeated.2 htail]
    rfl

end

end PayloadType

end ZigbeeGateway
