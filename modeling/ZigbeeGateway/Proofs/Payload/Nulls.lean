-- Null is told from every other value. Where a datatype has a pattern for it, a value that would
-- get the same pattern is refused, and what was written from a value is not read as null.
import ZigbeeGateway.Proofs.Payload.Leaves
namespace ZigbeeGateway

open LittleEndian

/-! ## All bits set -/

theorem bytes_allOnes (width : Nat) : bytes width (allOnes width) = List.replicate width 0xff := by
  induction width with
  | zero => rfl
  | succ width ih =>
    have hpos := limit_pos width
    have hbyte : UInt8.ofNat (allOnes (width + 1)) = 0xff := by
      rw [← UInt8.toNat_inj, UInt8.toNat_ofNat', allOnes, limit_succ]
      change (256 * limit width - 1) % 256 = 255
      omega
    have hrest : allOnes (width + 1) / 256 = allOnes width := by
      rw [allOnes, allOnes, limit_succ]
      omega
    rw [bytes, hbyte, hrest, ih, List.replicate_succ]

/-! ## Not a number -/

theorem isNaN_ofInt (n : Int) : (Double.ofInt n).isNaN = false :=
  FloatLayout.isNaN_ofMagnitude _ (FloatLayout.round_le _ _)

/-- A double that is not a number is meant by null or by itself. -/
theorem eq_of_doubleOf?_nan {v : Value} {x : Double} (h : doubleOf? v = some x)
    (hx : x.isNaN = true) : v = .null ∨ v = .float x := by
  cases v with
  | null => exact Or.inl rfl
  | float y =>
    cases h
    exact Or.inr rfl
  | int n =>
    cases h
    rw [isNaN_ofInt] at hx
    cases hx
  | uint n =>
    cases h
    rw [isNaN_ofInt] at hx
    cases hx
  | text s =>
    -- a text names an infinity or nothing
    simp only [doubleOf?, infinityOf?] at h
    split at h
    · cases h
      cases hx
    · split at h
      · cases h
        cases hx
      · cases h
  | _ => cases h

/-! ## Null is read from nothing else -/

/-- What a value was written as is read as null only if the value is null or not a number. -/
def NullOnly (r : Reader Value) (w : Value → Writer) : Prop :=
  ∀ v bs rest, (w v).Writes bs → r bs = .ok (.null, rest) →
    v = .null ∨ ∃ x, v = .float x ∧ x.isNaN = true

theorem not_null_of_run {r : Reader Value} {bs rest rest' : Bytes} {v : Value}
    (hv : r bs = .ok (v, rest)) (hnull : v.isNull = false) : r bs ≠ .ok (.null, rest') := by
  intro h
  rw [hv] at h
  rw [(Prod.mk.inj (Except.ok.inj h)).1] at hnull
  cases hnull

theorem nullOnly_map {α : Type} {r : Reader α} {g : α → Value} (hg : ∀ x, (g x).isNull = false)
    (w : Value → Writer) : NullOnly (g <$> r) w := by
  intro v bs rest _ hr
  obtain ⟨x, hx, -⟩ := Reader.map_eq_ok hr
  exact absurd hr (not_null_of_run (Reader.map_run hx) (hg x))

theorem nullOnly_orNull {width : Nat} {meaning : Nat → Value}
    {number : Value → Except WriteError Nat} (h : Inverts width meaning number) (t : Datatype) :
    NullOnly (readOrNull width meaning) fun v => writeOrNull t width v (number v) := by
  intro v bs rest hw hr
  rcases written_orNull hw with ⟨rfl, -⟩ | ⟨n, hn, hones, rfl⟩
  · exact Or.inl rfl
  · -- a value that comes to the number for null has been refused
    have hrun := readOrNull_run (h.small v n hn) meaning []
    rw [List.append_nil, if_neg hones] at hrun
    exact absurd hr (not_null_of_run hrun (h.notNull n))

theorem nullOnly_string {meaning : Bytes → Value} (hmeaning : ∀ bs, (meaning bs).isNull = false)
    (t : Datatype) (size : LengthSize) :
    NullOnly (readCounted size meaning) (writeString t size) := by
  intro v bs rest hw hr
  rcases written_string hw with ⟨rfl, -⟩ | ⟨c, -, -, hshort, rfl⟩
  · exact Or.inl rfl
  · have hrun := readCounted_run hshort meaning []
    rw [List.append_nil] at hrun
    exact absurd hr (not_null_of_run hrun (hmeaning c))

theorem nullOnly_fields (t : Datatype) (fields : List (String × Int)) :
    NullOnly (readFields fields) (writeFields t fields) := by
  intro v bs rest _ hr
  obtain ⟨bytes, mid, -, hfields⟩ := Reader.bind_eq_ok hr
  cases hfields

theorem nullOnly_bool : NullOnly readBool writeBool := by
  intro v bs rest hw hr
  rcases written_bool hw with ⟨rfl, -⟩ | ⟨b, rfl, rfl⟩
  · exact Or.inl rfl
  · cases b
    · cases hr
    · cases hr

theorem nullOnly_nothing (r : Reader Value) (t : Datatype) :
    NullOnly r fun v => if v.isNull then pure () else throw (.unfit t "null" v) := by
  intro v bs rest hw _
  obtain ⟨rfl, -⟩ := written_nothing hw
  exact Or.inl rfl

theorem FloatLayout.OnAir.nullOnly {f : FloatLayout} (hf : f.OnAir) (t : Datatype) :
    NullOnly (readFloat f) (writeFloat t f) := by
  intro v bs rest hw hr
  obtain ⟨x, hx, rfl⟩ := written_float hw
  rcases encode_cases f x with ⟨hnan, -⟩ | ⟨negative, m, hm, he⟩
  · rcases eq_of_doubleOf?_nan hx hnan with rfl | rfl
    · exact Or.inl rfl
    · exact Or.inr ⟨x, rfl, hnan⟩
  · -- a number is read as a number
    have hsign := hm.trans_lt f.infinity_lt_signBit
    have hrun := reads f (hf.limit_width ▸ withSign_lt negative hsign) []
    rw [← magnitude_withSign negative hsign] at hm
    rw [List.append_nil, hf.floatValue_number hm, ← he] at hrun
    exact absurd hr (not_null_of_run hrun rfl)

theorem nullOnly_flat (cluster : Option Cluster) (t : Datatype) :
    NullOnly (t.readFlat cluster) (t.writeFlat cluster) := by
  rcases hnumber : t.numberWidth? with _ | width
  · cases t with
    | data w => exact nullOnly_map (fun _ => rfl) _
    | key128 => exact nullOnly_map (fun _ => rfl) _
    | bool => exact nullOnly_bool
    | semi => exact onAir_semi.nullOnly _
    | single => exact onAir_single.nullOnly _
    | double => exact onAir_double.nullOnly _
    | octets size => exact nullOnly_string (fun _ => rfl) _ size
    | text size => exact nullOnly_string (fun _ => rfl) _ size
    | timeOfDay => exact nullOnly_fields _ _
    | date => exact nullOnly_fields _ _
    | noData | unknown | sequence _ | struct => exact nullOnly_nothing _ _
    | _ => cases hnumber
  · obtain ⟨meaning, number, hinverts, hread, hwrite⟩ := numberWidth?_eq_some (Or.inr rfl) hnumber
    rw [hread, hwrite]
    exact nullOnly_orNull hinverts t

theorem nullOnly_items {item : Value → Writer} (hadd : ∀ v, (item v).Additive) (r : Reader Value)
    (tooMany : WriteError) (mismatch : Value → WriteError) :
    NullOnly (readItems r) fun v => writeItems item tooMany (mismatch v) v := by
  intro v bs rest hw hr
  rcases written_items hadd hw with ⟨rfl, -⟩ | ⟨items, bss, rfl, hfew, rfl, -⟩
  · exact Or.inl rfl
  · have hcount : items.length < limit 2 := Nat.lt_trans hfew (Inverts.allOnes_lt 2)
    rw [readItems, Reader.bind_run (Reader.number_run hcount _), if_neg (by omega)] at hr
    obtain ⟨vs, mid, -, hlist⟩ := Reader.bind_eq_ok hr
    cases hlist

theorem nullOnly_datatype (cluster : Option Cluster) (room : Nat) (t : Datatype) :
    NullOnly (t.read cluster room) (t.write cluster room) := by
  cases t with
  | sequence kind =>
    intro v bs rest hw hr
    cases room with
    | zero => exact absurd hw Writer.not_writes_throw
    | succ room =>
      -- the record that is read names the type of the elements whatever these are
      obtain ⟨element, mid, -, hr⟩ := Reader.bind_eq_ok hr
      obtain ⟨elements, mid, -, hr⟩ := Reader.bind_eq_ok hr
      cases hr
  | struct =>
    cases room with
    | zero => exact fun v bs rest hw => absurd hw Writer.not_writes_throw
    | succ room =>
      exact nullOnly_items (additive_writeTagged (additive_datatype cluster room)) _ _ _
  | _ => cases room <;> exact nullOnly_flat cluster _

/-! ## What null is written as -/

/-- The bytes of null in the datatypes in which it has bytes of its own: all bits set, for floating
point the quiet NaN, and none for datatypes without data. -/
def Datatype.nullBytes? : Datatype → Option Bytes
  | noData | unknown => some []
  | bool | enum8 => some [0xff]
  | enum16 | clusterId | attributeId | struct => some [0xff, 0xff]
  | utc | bacnetOid => some (List.replicate 4 0xff)
  | eui64 => some (List.replicate 8 0xff)
  | bitmap w | unsigned w | signed w => some (List.replicate w.bytes 0xff)
  | octets size | text size => some (List.replicate size.bytes 0xff)
  | semi => some [0x00, 0x7e]
  | single => some [0x00, 0x00, 0xc0, 0x7f]
  | double => some [0x00, 0x00, 0x00, 0x00, 0x00, 0x00, 0xf8, 0x7f]
  | data _ | key128 | sequence _ | timeOfDay | date => none

theorem nullBytes?_of_number {t : Datatype} {width : Nat} (h : t.numberWidth? = some width) :
    t.nullBytes? = some (bytes width (allOnes width)) := by
  rw [bytes_allOnes]
  cases t with
  | bitmap _ | unsigned _ | signed _ | enum8 | enum16 | clusterId | attributeId | utc | bacnetOid
  | eui64 =>
    cases h
    rfl
  | _ => cases h

theorem spells_null_flat (cluster : Option Cluster) {t : Datatype} {bs : Bytes}
    (h : t.nullBytes? = some bs) (hstruct : t ≠ .struct) :
    Spells (t.readFlat cluster) (t.writeFlat cluster) False .null bs := by
  rcases hnumber : t.numberWidth? with _ | width
  · cases t with
    | noData | unknown =>
      cases h
      exact spells_nothing rfl
    | bool =>
      cases h
      exact spells_noBool
    | octets size | text size =>
      cases h
      rw [← bytes_allOnes]
      exact spells_noString _ size _
    | semi =>
      cases h
      exact onAir_semi.spells_nan _
    | single =>
      cases h
      exact onAir_single.spells_nan _
    | double =>
      cases h
      exact onAir_double.spells_nan _
    | struct => exact absurd rfl hstruct
    | data _ | key128 | sequence _ | timeOfDay | date => cases h
    | _ => cases hnumber
  · obtain ⟨meaning, number, hinverts, hread, hwrite⟩ := numberWidth?_eq_some (Or.inr rfl) hnumber
    have hspells := hinverts.spells t (Inverts.allOnes_lt width)
    rw [if_pos rfl] at hspells
    rw [nullBytes?_of_number hnumber] at h
    cases h
    rwa [hread, hwrite]

/-- Null is written as its bytes and read from them. -/
theorem spells_null (cluster : Option Cluster) (room : Nat) {t : Datatype} {bs : Bytes}
    (h : t.nullBytes? = some bs) :
    Spells (t.read cluster (room + 1)) (t.write cluster (room + 1)) False .null bs := by
  cases t with
  | sequence kind => cases h
  | struct =>
    cases h
    exact Spells.noItems _ _ _ _
  | _ => exact spells_null_flat cluster h (by simp)

/-! ## The law -/

/-- Null is never mistaken. What any value was written as is read as null only if the value is null
or not a number, and null itself is written in its own bytes and read back from them. -/
theorem null_is_never_mistaken (cluster : Option Cluster) (t : Datatype) :
    (∀ v b rest, (t.write cluster maxNesting v).toBytes = .ok b →
      t.read cluster maxNesting b = .ok (.null, rest) →
        v = .null ∨ ∃ x, v = .float x ∧ x.isNaN = true) ∧
      ∀ b, t.nullBytes? = some b → (t.write cluster maxNesting .null).toBytes = .ok b ∧
        t.read cluster maxNesting b = .ok (.null, []) := by
  have hbytes : ∀ {v b}, (t.write cluster maxNesting v).toBytes = .ok b ↔
      (t.write cluster maxNesting v).Writes b :=
    Writer.toBytes_eq_ok (additive_datatype cluster maxNesting t _)
  constructor
  · intro v b rest hwrite hread
    exact nullOnly_datatype cluster maxNesting t v b rest (hbytes.mp hwrite) hread
  · intro b hb
    have hspells := spells_null cluster 31 hb
    have hread := hspells.reads_anywhere []
    rw [List.append_nil] at hread
    exact ⟨hbytes.mpr hspells.writes, hread⟩

/-- A NaN of any pattern is written as the quiet one of half precision, which is null. -/
theorem a_nan_is_written_as_null :
    let x : Double := ⟨0xfff0000000000001⟩
    let b : Bytes := [0x00, 0x7e]
    (Datatype.semi.write none maxNesting (.float x)).toBytes = .ok b ∧
      Datatype.semi.read none maxNesting b = .ok (.null, []) ∧
      (Value.float x = .null ∨ ∃ y, Value.float x = .float y ∧ y.isNaN = true) ∧
      (Datatype.semi.write none maxNesting .null).toBytes = .ok b := by
  intro x b
  obtain ⟨hmistaken, hnull⟩ := null_is_never_mistaken none .semi
  obtain ⟨hwrite, hread⟩ := hnull b rfl
  have hnan : x.isNaN = true := by decide
  have hwrites : (Datatype.semi.write none maxNesting (.float x)).Writes b := by
    change (writeFloat .semi .semi (.float x)).Writes (bytes 2 FloatLayout.semi.quietNaN)
    rw [← FloatLayout.encode_nan hnan]
    exact writes_float rfl
  have hbytes := (Writer.toBytes_eq_ok (additive_datatype none maxNesting .semi _)).mpr hwrites
  exact ⟨hbytes, hread, hmistaken _ b [] hbytes hread, hwrite⟩

end ZigbeeGateway
