-- Datatypes that hold no other values. For all but floating point the bytes that are read and
-- those that are written are the same; floating point has many NaN patterns and writes one.
import ZigbeeGateway.Proofs.Payload.Floats
import ZigbeeGateway.Proofs.Payload.Numbers
namespace ZigbeeGateway

open LittleEndian

/-! ## Lists made item by item -/

theorem mapM_eq_ok {α β ε : Type} {f : α → Except ε β} {xs : List α} {ys : List β} :
    xs.mapM f = .ok ys ↔ List.Forall₂ (fun x y => f x = .ok y) xs ys := by
  induction xs generalizing ys with
  | nil =>
    rw [List.forall₂_nil_left_iff, List.mapM_nil]
    exact ⟨fun h => by cases h; rfl, fun h => by rw [h]; rfl⟩
  | cons x xs ih =>
    rw [List.mapM_cons, List.forall₂_cons_left_iff]
    rcases hx : f x with e | y
    · simp [bind, Except.bind]
    · rcases hxs : xs.mapM f with e | ys'
      · simp [bind, Except.bind, ← ih, hxs]
      · simp [bind, Except.bind, pure, Except.pure, ← ih, hxs, eq_comm]

theorem mapM_map_eq_ok {α β ε : Type} {f : α → Except ε β} {g : β → α}
    (h : ∀ y, f (g y) = .ok y) (ys : List β) : (ys.map g).mapM f = .ok ys :=
  mapM_eq_ok.mpr (List.forall₂_map_left_iff.mpr (List.forall₂_same.mpr fun y _ => h y))

/-! ## Bytes and strings -/

theorem byteOf_ofByte (t : Datatype) (b : UInt8) : byteOf t (.ofByte b) = .ok b := by
  rw [byteOf, Value.toByte?_ofByte]

/-- A byte is the number of its character. -/
theorem toNat_char_ofNat (b : UInt8) : (Char.ofNat b.toNat).toNat = b.toNat := by
  have hb : b.toNat < 256 := b.toNat_lt
  have hvalid : b.toNat.isValidChar := Or.inl (by omega)
  rw [Char.ofNat, dif_pos hvalid]
  rfl

theorem latinByte_ofNat (t : Datatype) (b : UInt8) :
    latinByte t (Char.ofNat b.toNat) = .ok b := by
  have hb : b.toNat < 256 := b.toNat_lt
  rw [latinByte, toNat_char_ofNat, if_pos hb, UInt8.ofNat_toNat]

theorem agree_bytes (t : Datatype) (count : Nat) :
    Agree (.ofBytes <$> Reader.take count) (writeBytes t count) := by
  have hspells : ∀ c : Bytes, c.length = count →
      Spells (.ofBytes <$> Reader.take count) (writeBytes t count) False (.ofBytes c) c := by
    intro c hc
    refine .of_asJson (Value.asJson_ofBytes c) (fun s => Reader.map_run (Reader.take_run hc s)) ?_
    simp only [writeBytes, Value.ofBytes, Value.toList?, List.length_map, if_pos hc]
    exact Writer.writes_eachByte.mpr (List.forall₂_map_left_iff.mpr
      (List.forall₂_same.mpr fun b _ => byteOf_ofByte t b))
  constructor
  · intro bs v rest h
    obtain ⟨c, hc, rfl⟩ := Reader.map_eq_ok h
    obtain ⟨rfl, hlen⟩ := Reader.take_eq_ok hc
    exact ⟨c, rfl, hspells c hlen⟩
  · intro v bs h
    obtain ⟨items, -, hcount, hitems⟩ := written_bytes h
    exact ⟨_, hspells bs (hitems.length_eq.symm.trans hcount)⟩

theorem readCounted_run {size : LengthSize} {c : Bytes} (hc : c.length < allOnes size.bytes)
    (meaning : Bytes → Value) (s : Bytes) :
    readCounted size meaning (bytes size.bytes c.length ++ c ++ s) = .ok (meaning c, s) := by
  have hlen : c.length < limit size.bytes := Nat.lt_trans hc (Inverts.allOnes_lt _)
  rw [readCounted, List.append_assoc, Reader.bind_run (Reader.number_run hlen _),
    if_neg (by omega), Reader.bind_run (Reader.take_append c s)]
  rfl

section Strings

variable {t : Datatype} {size : LengthSize} {meaning : Bytes → Value}

theorem spells_noString (t : Datatype) (size : LengthSize) (meaning : Bytes → Value) :
    Spells (readCounted size meaning) (writeString t size) False .null
      (bytes size.bytes (allOnes size.bytes)) := by
  refine .of_asJson rfl (fun s => ?_) (Writer.writes_number _ _)
  rw [readCounted, Reader.bind_run (Reader.number_run (Inverts.allOnes_lt _) s), if_pos rfl]
  rfl

theorem spells_string (hnull : ∀ bs, (meaning bs).isNull = false)
    (hjson : ∀ bs, (meaning bs).asJson = meaning bs)
    (hback : ∀ bs, stringBytes t (meaning bs) = .ok bs) {c : Bytes}
    (hc : c.length < allOnes size.bytes) :
    Spells (readCounted size meaning) (writeString t size) False (meaning c)
      (bytes size.bytes c.length ++ c) := by
  refine .of_asJson (hjson c) (readCounted_run hc meaning) ?_
  simp only [writeString, hnull, hback, Bool.false_eq_true, if_false, if_neg (Nat.not_le.mpr hc)]
  exact (Writer.writes_number _ _).then (Writer.writes_bytes c)

/-- Strings agree if the meaning of the bytes of a string can be taken back. -/
theorem agree_string (hnull : ∀ bs, (meaning bs).isNull = false)
    (hjson : ∀ bs, (meaning bs).asJson = meaning bs)
    (hback : ∀ bs, stringBytes t (meaning bs) = .ok bs) :
    Agree (readCounted size meaning) (writeString t size) := by
  constructor
  · intro bs v rest h
    obtain ⟨n, mid, hn, hv⟩ := Reader.bind_eq_ok h
    obtain ⟨hlt, rfl⟩ := Reader.number_eq_ok hn
    by_cases hones : n = allOnes size.bytes
    · rw [if_pos hones] at hv
      cases hv
      exact ⟨_, rfl, hones ▸ spells_noString t size meaning⟩
    · rw [if_neg hones] at hv
      obtain ⟨c, mid', hc, hpair⟩ := Reader.bind_eq_ok hv
      obtain ⟨rfl, rfl⟩ := Reader.take_eq_ok hc
      cases hpair
      refine ⟨_, (List.append_assoc ..).symm, spells_string hnull hjson hback ?_⟩
      rw [allOnes] at hones ⊢
      omega
  · intro v bs h
    rcases written_string h with ⟨-, rfl⟩ | ⟨c, -, -, hshort, rfl⟩
    · exact ⟨_, spells_noString t size meaning⟩
    · exact ⟨_, spells_string hnull hjson hback hshort⟩

end Strings

theorem agree_octets (size : LengthSize) :
    Agree (readCounted size .ofBytes) (writeString (.octets size) size) :=
  agree_string (fun _ => rfl) Value.asJson_ofBytes fun bs => mapM_map_eq_ok (byteOf_ofByte _) bs

theorem agree_text (size : LengthSize) :
    Agree (readCounted size latinValue) (writeString (.text size) size) := by
  refine agree_string (fun _ => rfl) (fun _ => rfl) fun bs => ?_
  simp only [stringBytes, latinValue, String.toList_ofList]
  exact mapM_map_eq_ok (latinByte_ofNat _) bs

/-! ## Dates and times -/

theorem fieldByte_fieldValue (t : Datatype) (name : String) {base : Int} (hlow : 0 ≤ base)
    (hhigh : base ≤ 1900) (b : UInt8) : fieldByte t name base (fieldValue base b) = .ok b := by
  have hb : b.toNat < 256 := b.toNat_lt
  by_cases hnone : b = 0xff
  · subst hnone
    rfl
  · have hlt : b.toNat < 255 := by
      have : b.toNat ≠ (0xff : UInt8).toNat := fun h => hnone (UInt8.toNat_inj.mp h)
      have : (0xff : UInt8).toNat = 255 := rfl
      omega
    have hint : (Value.ofInt (b.toNat + base)).toInt? = some (b.toNat + base) :=
      Value.toInt?_ofInt (by omega) (by omega)
    have hnull : (Value.ofInt (b.toNat + base)).isNull = false := rfl
    have hback : (b.toNat + base - base).toNat = b.toNat := by omega
    rw [fieldValue, if_neg hnone]
    simp only [fieldByte, hnull, hint, Bool.false_eq_true, if_false, hback, UInt8.ofNat_toNat]
    exact if_pos (by omega)

/-- The fields that the bytes of a date or time are. -/
def fieldEntries (fields : List (String × Int)) (bs : Bytes) : List (String × Value) :=
  (fields.zip bs).map fun entry => (entry.1.1, fieldValue entry.1.2 entry.2)

section Fields

variable {fields : List (String × Int)} {bs : Bytes}

theorem fst_fieldEntries (h : bs.length = fields.length) :
    (fieldEntries fields bs).map Prod.fst = fields.map Prod.fst := by
  have hzip : (fields.zip bs).map Prod.fst = fields := List.map_fst_zip h.ge
  conv_rhs => rw [← hzip, List.map_map]
  rw [fieldEntries, List.map_map]
  rfl

theorem asJson_fieldValue (base : Int) (b : UInt8) :
    (fieldValue base b).asJson = fieldValue base b := by
  unfold fieldValue
  split
  · rfl
  · rfl

theorem asJson_fieldEntries (fields : List (String × Int)) (bs : Bytes) :
    (Value.ofFields (fieldEntries fields bs)).asJson = .ofFields (fieldEntries fields bs) := by
  rw [Value.asJson_ofFields, fieldEntries, List.map_map]
  simp only [Function.comp_def, asJson_fieldValue]

theorem readFields_run (h : bs.length = fields.length) (s : Bytes) :
    readFields fields (bs ++ s) = .ok (.ofFields (fieldEntries fields bs), s) := by
  rw [readFields, Reader.bind_run (Reader.take_run h s)]
  rfl

theorem writes_fieldEntries (t : Datatype) (hnames : (fields.map Prod.fst).Nodup)
    (hbase : ∀ f ∈ fields, 0 ≤ f.2 ∧ f.2 ≤ 1900) (h : bs.length = fields.length) :
    (writeFields t fields (.ofFields (fieldEntries fields bs))).Writes bs := by
  have hnodup : ((fieldEntries fields bs).map Prod.fst).Nodup := by rwa [fst_fieldEntries h]
  refine Writer.writes_eachByte.mpr (List.forall₂_iff_zip.mpr ⟨h.symm, ?_⟩)
  rintro ⟨name, base⟩ b hmem
  have hfield := Fields.get?_ofList hnodup (List.mem_map_of_mem hmem)
  obtain ⟨hlow, hhigh⟩ := hbase _ (List.of_mem_zip hmem).1
  simp only [Value.ofFields, Value.getOrNull, Value.get?, hfield, Option.getD_some]
  exact fieldByte_fieldValue t name hlow hhigh b

theorem agree_fields (t : Datatype) (hnames : (fields.map Prod.fst).Nodup)
    (hbase : ∀ f ∈ fields, 0 ≤ f.2 ∧ f.2 ≤ 1900) :
    Agree (readFields fields) (writeFields t fields) := by
  have hspells : ∀ c : Bytes, c.length = fields.length →
      Spells (readFields fields) (writeFields t fields) False
        (.ofFields (fieldEntries fields c)) c := fun c hc =>
    .of_asJson (asJson_fieldEntries fields c) (readFields_run hc)
      (writes_fieldEntries t hnames hbase hc)
  constructor
  · intro bs v rest h
    obtain ⟨c, mid, hc, hv⟩ := Reader.bind_eq_ok h
    obtain ⟨rfl, hlen⟩ := Reader.take_eq_ok hc
    cases hv
    exact ⟨c, rfl, hspells c hlen⟩
  · intro v bs h
    exact ⟨_, hspells bs (written_fields h)⟩

end Fields

/-! ## Truth values and values without bytes -/

theorem spells_noBool : Spells readBool writeBool False .null [0xff] :=
  .of_asJson rfl (fun s => by rw [readBool]; exact Reader.bind_run (Reader.byte_run 0xff s))
    (Writer.writes_bytes _)

theorem agree_bool : Agree readBool writeBool := by
  have hfalse : Spells readBool writeBool False (.bool false) [0] :=
    .of_asJson rfl (fun s => by rw [readBool]; exact Reader.bind_run (Reader.byte_run 0 s))
      (Writer.writes_bytes _)
  have htrue : Spells readBool writeBool False (.bool true) [1] :=
    .of_asJson rfl (fun s => by rw [readBool]; exact Reader.bind_run (Reader.byte_run 1 s))
      (Writer.writes_bytes _)
  constructor
  · intro bs v rest h
    obtain ⟨b, mid, hb, hv⟩ := Reader.bind_eq_ok h
    rw [Reader.byte_eq_ok hb]
    split at hv
    · cases hv
      exact ⟨[0], rfl, hfalse⟩
    · cases hv
      exact ⟨[1], rfl, htrue⟩
    · cases hv
      exact ⟨[0xff], rfl, spells_noBool⟩
    · cases hv
  · intro v bs h
    rcases written_bool h with ⟨-, rfl⟩ | ⟨b, -, rfl⟩
    · exact ⟨_, spells_noBool⟩
    · cases b
      · exact ⟨_, hfalse⟩
      · exact ⟨_, htrue⟩

theorem spells_nothing {w : Value → Writer} (hw : w .null = pure ()) :
    Spells (pure .null) w False .null [] :=
  .of_asJson rfl (fun _ => rfl) (hw ▸ Writer.writes_pure)

theorem agree_nothing (t : Datatype) : Agree (pure .null) fun v =>
    if v.isNull then pure () else throw (.unfit t "null" v) := by
  have hspells := spells_nothing (w := fun v : Value =>
    if v.isNull then pure () else throw (.unfit t "null" v)) rfl
  constructor
  · intro bs v rest h
    cases h
    exact ⟨[], rfl, hspells⟩
  · intro v bs h
    obtain ⟨-, rfl⟩ := written_nothing h
    exact ⟨_, hspells⟩

/-! ## All of them -/

/-- How many bytes the numbers of a datatype take, where one of them is kept for null. -/
def Datatype.numberWidth? : Datatype → Option Nat
  | bitmap w | unsigned w | signed w => some w.bytes
  | enum8 => some 1
  | enum16 | clusterId | attributeId => some 2
  | utc | bacnetOid => some 4
  | eui64 => some 8
  | _ => none

/-- Such a datatype has a meaning of its numbers and the way back. -/
theorem numberWidth?_eq_some {rc wc : Option Cluster} (h : rc = none ∨ rc = wc) {t : Datatype}
    {width : Nat} (ht : t.numberWidth? = some width) :
    ∃ meaning number, Inverts width meaning number ∧ t.readFlat rc = readOrNull width meaning ∧
      t.writeFlat wc = fun v => writeOrNull t width v (number v) := by
  cases t with
  | bitmap w =>
    cases ht
    exact ⟨_, _, inverts_bitmap _ w, rfl, rfl⟩
  | unsigned w =>
    cases ht
    exact ⟨_, _, inverts_unsigned _ w.isLt, rfl, rfl⟩
  | signed w =>
    cases ht
    exact ⟨_, _, inverts_signed _ w.isLt, rfl, rfl⟩
  | enum8 | enum16 | clusterId | utc | bacnetOid =>
    cases ht
    exact ⟨_, _, inverts_unsigned _ (by decide), rfl, rfl⟩
  | attributeId =>
    cases ht
    exact ⟨_, _, inverts_attribute h, rfl, rfl⟩
  | eui64 =>
    cases ht
    exact ⟨_, _, inverts_address, rfl, rfl⟩
  | _ => cases ht

/-- Datatypes other than floating point agree. -/
theorem agree_flat {rc wc : Option Cluster} (h : rc = none ∨ rc = wc) {t : Datatype}
    (ht : t.layout? = none) : Agree (t.readFlat rc) (t.writeFlat wc) := by
  rcases hnumber : t.numberWidth? with _ | width
  · cases t with
    | data w => exact agree_bytes _ _
    | key128 => exact agree_bytes _ _
    | bool => exact agree_bool
    | octets size => exact agree_octets size
    | text size => exact agree_text size
    | timeOfDay => exact agree_fields _ (by decide) (by decide)
    | date => exact agree_fields _ (by decide) (by decide)
    | noData | unknown | sequence _ | struct => exact agree_nothing _
    | semi | single | double => cases ht
    | _ => cases hnumber
  · obtain ⟨meaning, number, hinverts, hread, hwrite⟩ := numberWidth?_eq_some h hnumber
    rw [hread, hwrite]
    exact hinverts.agree t

/-- A floating point datatype has a layout that numbers have on the air. -/
theorem layout?_eq_some {t : Datatype} {f : FloatLayout} (h : t.layout? = some f) :
    f.OnAir ∧ (∀ rc, t.readFlat rc = readFloat f) ∧ ∀ wc, t.writeFlat wc = writeFloat t f := by
  cases t with
  | semi =>
    cases h
    exact ⟨onAir_semi, fun _ => rfl, fun _ => rfl⟩
  | single =>
    cases h
    exact ⟨onAir_single, fun _ => rfl, fun _ => rfl⟩
  | double =>
    cases h
    exact ⟨onAir_double, fun _ => rfl, fun _ => rfl⟩
  | _ => cases h

end ZigbeeGateway
