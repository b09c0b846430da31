-- The size of a value is told without writing it, by a recursion of its own over types and values.
-- Where writing succeeds the two agree.
import ZigbeeGateway.Payload.Size
import ZigbeeGateway.Proofs.Payload.Written
namespace ZigbeeGateway

open LittleEndian

/-- The size told of a value that can be written is the number of bytes it is written in. -/
def Measures (size : Value → Except WriteError Nat) (w : Value → Writer) : Prop :=
  ∀ v bs, (w v).Writes bs → size v = .ok bs.length

/-! ## Sums -/

theorem foldlM_sizes {α : Type} {size : α → Except WriteError Nat} {items : List α}
    {bss : List Bytes} (h : List.Forall₂ (fun x bs => size x = .ok bs.length) items bss)
    (sum : Nat) :
    items.foldlM (fun sum item => (size item).map (sum + ·)) sum =
      .ok (sum + bss.flatten.length) := by
  induction h generalizing sum with
  | nil => rfl
  | cons hx _ ih =>
    rw [List.foldlM_cons, hx, List.flatten_cons, List.length_append, ← Nat.add_assoc]
    exact ih _

theorem sumSizes_eq {α : Type} {size : α → Except WriteError Nat} {items : List α}
    {bss : List Bytes} (h : List.Forall₂ (fun x bs => size x = .ok bs.length) items bss) :
    sumSizes size items = .ok bss.flatten.length := by
  unfold sumSizes
  rw [foldlM_sizes h, Nat.zero_add]

/-- The items of a list have the sizes that they are written in. -/
theorem Measures.forall₂ {size : Value → Except WriteError Nat} {w : Value → Writer}
    (h : Measures size w) {items : List Value} {bss : List Bytes}
    (hw : List.Forall₂ (fun v bs => (w v).Writes bs) items bss) :
    List.Forall₂ (fun v bs => size v = .ok bs.length) items bss :=
  hw.imp fun v bs hv => h v bs hv

/-! ## Datatypes that hold no other values -/

section Leaves

variable {t : Datatype} {v : Value} {bs : Bytes}

theorem length_orNull {width : Nat} {meaning : Except WriteError Nat}
    (h : (writeOrNull t width v meaning).Writes bs) : bs.length = width := by
  rcases written_orNull h with ⟨-, rfl⟩ | ⟨n, -, -, rfl⟩
  · exact length_bytes _ _
  · exact length_bytes _ _

theorem length_float {f : FloatLayout} (h : (writeFloat t f v).Writes bs) :
    bs.length = f.width := by
  obtain ⟨x, -, rfl⟩ := written_float h
  exact length_bytes _ _

theorem length_writeBytes {count : Nat} (h : (writeBytes t count v).Writes bs) :
    bs.length = count := by
  obtain ⟨items, -, hcount, hitems⟩ := written_bytes h
  rw [← hcount, hitems.length_eq]

theorem length_bool (h : (writeBool v).Writes bs) : bs.length = 1 := by
  rcases written_bool h with ⟨-, rfl⟩ | ⟨b, -, rfl⟩
  · rfl
  · rfl

theorem stringSize_eq {size : LengthSize} (h : (writeString t size v).Writes bs) :
    stringSize t size v = .ok bs.length := by
  unfold stringSize
  rcases written_string h with ⟨rfl, rfl⟩ | ⟨c, hnull, hc, -, rfl⟩
  · rw [length_bytes]
    rfl
  · rw [hnull, hc, List.length_append, length_bytes]
    rfl

end Leaves

theorem measures_flat (cluster : Option Cluster) (t : Datatype) :
    Measures t.flatSize (t.writeFlat cluster) := by
  intro v bs h
  cases t with
  | data _ | key128 => exact congrArg Except.ok (length_writeBytes h).symm
  | bool => exact congrArg Except.ok (length_bool h).symm
  | semi | single | double => exact congrArg Except.ok (length_float h).symm
  | octets size | text size => exact stringSize_eq h
  | timeOfDay | date => exact congrArg Except.ok (written_fields h).symm
  | noData | unknown | sequence _ | struct =>
    obtain ⟨-, rfl⟩ := written_nothing h
    rfl
  | _ => exact congrArg Except.ok (length_orNull h).symm

/-! ## Values inside values -/

/-- The texts of its errors aside, a datatype is named or it is not. -/
theorem namedType_of_ok {field : String} {v : Value} {missing missing' : WriteError}
    {unknown unknown' : String → WriteError} {t : Datatype}
    (h : namedType field v missing unknown = .ok t) :
    namedType field v missing' unknown' = .ok t := by
  unfold namedType at h ⊢
  split at h
  · cases h
  · split at h
    · exact h
    · cases h

theorem measures_tagged {size : Datatype → Value → Except WriteError Nat}
    {write : Datatype → Value → Writer} (hadd : ∀ t v, (write t v).Additive)
    (h : ∀ t, Measures (size t) (write t)) : Measures (taggedSize size) (writeTagged write) := by
  intro v bs hw
  unfold taggedSize
  rcases written_tagged hadd hw with ⟨rfl, rfl⟩ | ⟨t, rest, hnull, ht, rfl, hvalue⟩
  · rfl
  · rw [hnull, namedType_of_ok ht, List.length_cons, Nat.add_comm]
    simp only [h t _ rest hvalue, bind, Except.bind]
    rfl

/-- A count of two bytes stands before the items. -/
theorem sumSizes_items {size : Value → Except WriteError Nat} {item : Value → Writer}
    (hadd : ∀ v, (item v).Additive) (h : Measures size item) {tooMany mismatch : WriteError}
    {v : Value} {bs : Bytes} (hw : (writeItems item tooMany mismatch v).Writes bs) :
    ∃ n, sumSizes size v.items = .ok n ∧ bs.length = 2 + n := by
  rcases written_items hadd hw with ⟨rfl, rfl⟩ | ⟨items, bss, rfl, -, rfl, hbss⟩
  · exact ⟨0, rfl, length_bytes _ _⟩
  · refine ⟨_, sumSizes_eq (h.forall₂ hbss), ?_⟩
    rw [List.length_append, length_bytes]

/-- Sequences and structures use up room in both; what had room to be written has room to be
measured. -/
theorem measures_datatype (cluster : Option Cluster) {room room' : Nat} (hroom : room ≤ room')
    (t : Datatype) : Measures (t.size room') (t.write cluster room) := by
  induction room generalizing room' t with
  | zero =>
    cases t with
    | sequence kind => exact fun v bs h => absurd h Writer.not_writes_throw
    | struct => exact fun v bs h => absurd h Writer.not_writes_throw
    | _ => cases room' <;> exact measures_flat cluster _
  | succ room ih =>
    obtain ⟨room', rfl⟩ := Nat.exists_eq_add_of_le' (Nat.one_le_of_lt hroom)
    have hroom := Nat.le_of_succ_le_succ hroom
    have hadd := additive_datatype cluster room
    cases t with
    | sequence kind =>
      intro v bs h
      obtain ⟨element, rest, helement, rfl, hitems⟩ := written_sequence h
      obtain ⟨n, hsum, hlen⟩ := sumSizes_items (hadd element) (ih hroom element) hitems
      rw [Datatype.size, namedType_of_ok helement, List.length_cons, hlen]
      simp only [bind, Except.bind, hsum, pure, Except.pure, Except.ok.injEq]
      omega
    | struct =>
      intro v bs h
      obtain ⟨n, hsum, hlen⟩ := sumSizes_items (additive_writeTagged hadd)
        (measures_tagged hadd (ih hroom)) h
      rw [Datatype.size, hsum, hlen]
      rfl
    | _ => exact measures_flat cluster _

namespace PayloadType

/-! ## Payload types -/

mutual

/-- Writing uses up room for every record, repetition and success around a value, measuring does
not; so a value is measured with at least the room that it is written with. -/
theorem measures_write (cluster : Option Cluster) {room room' : Nat} (hroom : room ≤ room')
    (type : PayloadType) : Measures (type.sizeWithin room') (type.write cluster room) := by
  intro v bs h
  match room, type with
  | room, variant =>
    exact measures_tagged (additive_datatype cluster room) (measures_datatype cluster hroom) v bs h
  | room, scalar t => exact measures_datatype cluster hroom t v bs h
  | 0, object _ => exact absurd h Writer.not_writes_throw
  | room + 1, object properties =>
    have hsum := measures_properties cluster (Nat.le_of_succ_le hroom) properties v bs 0
      (written_object h)
    rwa [Nat.zero_add] at hsum
  | 0, repeated _ => exact absurd h Writer.not_writes_throw
  | room + 1, repeated item =>
    obtain ⟨items, bss, rfl, rfl, hbss⟩ := written_repeated h
    have hitem := measures_write cluster (Nat.le_of_succ_le hroom) item
    exact sumSizes_eq (hitem.forall₂ hbss)
  | room, errorOr inner =>
    obtain ⟨status, rest, hstatus, rfl, hrest⟩ := written_errorOr h
    rw [sizeWithin, hstatus]
    rcases hrest with ⟨hfailed, rfl⟩ | ⟨rfl, room, rfl, hinner⟩
    · exact if_pos hfailed
    · have hsize := measures_write cluster (Nat.le_of_succ_le hroom) inner _ rest hinner
      rw [List.length_cons, Nat.add_comm]
      simp only [bind, Except.bind, hsize]
      rfl

theorem measures_properties (cluster : Option Cluster) {room room' : Nat} (hroom : room ≤ room')
    (properties : Properties) (v : Value) (bs : Bytes) (sum : Nat)
    (h : (writeProperties cluster room v properties).Writes bs) :
    propertiesSize room' v sum properties = .ok (sum + bs.length) := by
  match properties with
  | [] =>
    rw [h.unique Writer.writes_pure]
    rfl
  | (name, type) :: rest =>
    obtain ⟨bs₁, bs₂, rfl, hfirst, hrest⟩ := written_properties h
    have hsize := measures_write cluster hroom type _ bs₁ hfirst
    have hsum := measures_properties cluster hroom rest v bs₂ (sum + bs₁.length) hrest
    rw [propertiesSize, hsize, List.length_append, ← Nat.add_assoc]
    exact hsum

end

/-! ## The law -/

/-- However much room there is, a value that comes out as some bytes is said to take as many. -/
theorem sizeWithin_of_toBytes {cluster : Option Cluster} {room : Nat} {type : PayloadType}
    {v : Value} {b : Bytes} (h : (type.write cluster room v).toBytes = .ok b) :
    type.sizeWithin room v = .ok b.length :=
  measures_write cluster (Nat.le_refl room) type v b
    ((Writer.toBytes_eq_ok (additive_write cluster room type v)).mp h)

/-- The size told is the size written, whatever the type and the cluster. -/
theorem the_size_told_is_the_size_written (cluster : Option Cluster) (type : PayloadType)
    (v : Value) (b : Bytes) (h : type.encode cluster v = .ok b) : type.size v = .ok b.length := by
  unfold encode at h
  unfold size
  exact sizeWithin_of_toBytes h

/-- A success with a name, a list of numbers, and two values with tags of their own. -/
theorem a_mixed_record_takes_twelve_bytes :
    let type := object [("reply", errorOr (scalar (.text .oneByte))),
      ("numbers", scalar (.sequence .array)), ("rest", repeated variant)]
    let v := Value.ofFields [("reply", .ofFields [("value", .text "hi")]),
      ("numbers", .ofFields [("element_type", .text "uint8"),
        ("elements", .list [.int 1, .int 2])]),
      ("rest", .list [.null, .typed "bool" (.bool true)])]
    let b : Bytes := [0x00, 0x02, 0x68, 0x69, 0x20, 0x02, 0x00, 0x01, 0x02, 0x00, 0x10, 0x01]
    type.encode none v = .ok b ∧ type.size v = .ok b.length ∧ b.length = 12 := by
  intro type v b
  have hencode : type.encode none v = .ok b := by rfl
  exact ⟨hencode, the_size_told_is_the_size_written none type v b hencode, rfl⟩

end PayloadType

end ZigbeeGateway
