-- Values that can be published. What a message is read as has no NaN in it, its whole numbers are
-- where they belong, and it nests at most two levels for each value inside a value on the wire, so
-- its JSON text stays below the limit of the JSON reader.
import ZigbeeGateway.Proofs.Fields
import ZigbeeGateway.Proofs.Json.RoundTrip
import ZigbeeGateway.Proofs.Payload.Numbers
import ZigbeeGateway.Proofs.Values
namespace ZigbeeGateway

/-! ## What readers yield -/

namespace Reader

variable {α β : Type} {P : α → Prop} {Q : β → Prop}

/-- Every result has the property. -/
def Yields (r : Reader α) (P : α → Prop) : Prop := ∀ bs x rest, r bs = .ok (x, rest) → P x

theorem yields_true (r : Reader α) : r.Yields fun _ => True := fun _ _ _ _ => trivial

theorem yields_pure {x : α} (h : P x) : Yields (pure x) P := by
  intro bs y rest hr
  cases hr
  exact h

theorem yields_throw (e : ReadError) : Yields (throw e) P := by
  intro bs x rest hr
  cases hr

theorem Yields.bind {m : Reader α} {f : α → Reader β} (hm : m.Yields P)
    (hf : ∀ x, P x → (f x).Yields Q) : (m >>= f).Yields Q := by
  intro bs y rest hr
  obtain ⟨x, mid, hx, hy⟩ := bind_eq_ok hr
  exact hf x (hm bs x mid hx) mid y rest hy

theorem Yields.map {m : Reader α} {g : α → β} (hm : m.Yields P) (hg : ∀ x, P x → Q (g x)) :
    (g <$> m).Yields Q :=
  hm.bind fun x hx => yields_pure (hg x hx)

theorem Yields.mono {m : Reader α} {P' : α → Prop} (hm : m.Yields P) (h : ∀ x, P x → P' x) :
    m.Yields P' := fun bs x rest hr => h x (hm bs x rest hr)

theorem Yields.timesFrom {item : Reader α} (h : item.Yields P) {before : List α}
    (hbefore : ∀ x ∈ before, P x) (count : Nat) :
    (Reader.timesFrom item before count).Yields fun xs => ∀ x ∈ xs, P x := by
  induction count generalizing before with
  | zero => exact yields_pure fun x hx => hbefore x (List.mem_reverse.mp hx)
  | succ count ih => exact h.bind fun x hx => ih (List.forall_mem_cons.mpr ⟨hx, hbefore⟩)

theorem Yields.untilEndFrom {item : Reader α} {stuck : ReadError} (h : item.Yields P)
    {before : List α} (hbefore : ∀ x ∈ before, P x) :
    Yields (Reader.untilEndFrom item stuck before) fun xs => ∀ x ∈ xs, P x := by
  intro bs xs rest hr
  fun_induction Reader.untilEndFrom item stuck before bs with
  | case1 before =>
    cases hr
    exact fun x hx => hbefore x (List.mem_reverse.mp hx)
  | case2 => cases hr
  | case3 before bs hempty x mid hx hshort ih =>
    exact ih (List.forall_mem_cons.mpr ⟨h bs x mid hx, hbefore⟩) hr
  | case4 => cases hr

theorem yields_number (width : Nat) : (number width).Yields (· < LittleEndian.limit width) :=
  fun _ _ _ hr => (number_eq_ok hr).1

end Reader

open Reader

/-! ## Values to publish -/

namespace Value

/-- All that a value needs for being published: whole numbers where they belong, no NaN, and not
too many lists and records inside each other. -/
structure Publishable (depth : Nat) (v : Value) : Prop where
  normal : v.Normal
  noNaN : v.NoNaN
  nesting : v.nesting ≤ depth

variable {depth : Nat} {v : Value}

theorem Publishable.mono {depth' : Nat} (h : v.Publishable depth) (hle : depth ≤ depth') :
    v.Publishable depth' where
  normal := h.normal
  noNaN := h.noNaN
  nesting := Nat.le_trans h.nesting hle

theorem eq_of_within {u : Value} (h : u.Within v) (hv : v.nesting = 0) : u = v := by
  cases h with
  | self => rfl
  | item => simp [Value.nesting] at hv
  | field => simp [Value.nesting] at hv

/-- A value that is neither a list nor a record. -/
theorem publishable_single (hv : v.nesting = 0)
    (huint : ∀ n, uint n = v → Int64.maxValue.toInt < n.toNat)
    (hfloat : ∀ x, float x = v → x.isNaN = false) : v.Publishable depth where
  normal n hn := huint n (eq_of_within hn hv)
  noNaN x hx := hfloat x (eq_of_within hx hv)
  nesting := by omega

theorem publishable_null : null.Publishable depth := publishable_single rfl nofun nofun

theorem publishable_bool (b : Bool) : (bool b).Publishable depth :=
  publishable_single rfl nofun nofun

theorem publishable_text (s : String) : (text s).Publishable depth :=
  publishable_single rfl nofun nofun

theorem publishable_ofInt (n : Int) : (ofInt n).Publishable depth :=
  publishable_single rfl nofun nofun

theorem publishable_ofNat {n : Nat} (h : n < UInt64.size) : (ofNat n).Publishable depth := by
  refine publishable_single (nesting_ofNat n) (fun u hu => ?_) (fun x hx => ?_)
  · unfold ofNat at hu
    split at hu
    · cases hu
    · cases hu
      rw [Int64.toInt_maxValue, UInt64.toNat_ofNat_of_lt' h]
      omega
  · unfold ofNat at hx
    split at hx
    · cases hx
    · cases hx

theorem publishable_ofByte (b : UInt8) : (ofByte b).Publishable depth :=
  publishable_ofNat (Nat.lt_trans b.toNat_lt (by decide))

theorem publishable_list {vs : List Value} (h : ∀ v ∈ vs, v.Publishable depth) :
    (list vs).Publishable (depth + 1) where
  normal n hn := by
    cases hn with
    | item hn hmem => exact (h _ hmem).normal n hn
  noNaN x hx := by
    cases hx with
    | item hx hmem => exact (h _ hmem).noNaN x hx
  nesting := nesting_list_le fun v hv => (h v hv).nesting

theorem publishable_record {fields : Fields Value}
    (h : ∀ entry ∈ fields, entry.2.Publishable depth) :
    (record fields).Publishable (depth + 1) where
  normal n hn := by
    cases hn with
    | field hn hmem => exact (h _ hmem).normal n hn
  noNaN x hx := by
    cases hx with
    | field hx hmem => exact (h _ hmem).noNaN x hx
  nesting := nesting_record_le fun entry hentry => (h entry hentry).nesting

theorem publishable_ofFields {entries : List (String × Value)}
    (h : ∀ entry ∈ entries, entry.2.Publishable depth) :
    (ofFields entries).Publishable (depth + 1) :=
  publishable_record fun entry hentry => h entry (Fields.mem_ofList hentry)

theorem publishable_pair {first second : String} {u : Value} (hu : u.Publishable depth)
    (hv : v.Publishable depth) :
    (ofFields [(first, u), (second, v)]).Publishable (depth + 1) := by
  refine publishable_ofFields ?_
  simp only [List.forall_mem_cons]
  exact ⟨hu, hv, fun entry hentry => absurd hentry List.not_mem_nil⟩

theorem publishable_ofBytes (bs : Bytes) : (ofBytes bs).Publishable (depth + 1) := by
  refine publishable_list fun v hv => ?_
  obtain ⟨b, -, rfl⟩ := List.mem_map.mp hv
  exact publishable_ofByte b

end Value

open Value

/-! ## Datatypes -/

/-- Every value that is read can be published, and nests at most so deep. -/
def Reader.Publishes (r : Reader Value) (depth : Nat) : Prop := r.Yields (·.Publishable depth)

variable {depth : Nat}

theorem Reader.Publishes.mono {r : Reader Value} {depth' : Nat} (h : r.Publishes depth)
    (hle : depth ≤ depth') : r.Publishes depth' := Yields.mono h fun _ hv => hv.mono hle

theorem publishes_readOrNull (width : Nat) {meaning : Nat → Value}
    (h : ∀ n < LittleEndian.limit width, (meaning n).Publishable depth) :
    (readOrNull width meaning).Publishes depth := by
  refine (yields_number width).bind fun n hn => yields_pure ?_
  split
  · exact publishable_null
  · exact h n hn

theorem publishes_readNat {width : Nat} (h : width ≤ 8) :
    (readOrNull width .ofNat).Publishes depth :=
  publishes_readOrNull width fun _ hn => publishable_ofNat (Nat.lt_of_lt_of_le hn (limit_le h))

theorem publishes_readFloat (layout : FloatLayout) : (readFloat layout).Publishes depth := by
  refine (yields_true _).map fun raw _ => ?_
  by_cases hnan : (layout.decode raw).isNaN = true
  · simp only [floatValue, if_pos hnan]
    exact publishable_null
  · simp only [floatValue, if_neg hnan]
    refine publishable_single rfl nofun fun x hx => ?_
    cases hx
    simpa using hnan

theorem publishes_readCounted (size : LengthSize) {meaning : Bytes → Value}
    (h : ∀ bs, (meaning bs).Publishable depth) : (readCounted size meaning).Publishes depth := by
  refine (yields_true _).bind fun length _ => ?_
  split
  · exact yields_pure publishable_null
  · exact (yields_true _).bind fun bs _ => yields_pure (h bs)

theorem publishes_readFields (fields : List (String × Int)) :
    (readFields fields).Publishes (depth + 1) := by
  refine (yields_true _).bind fun bs _ => yields_pure (publishable_ofFields fun entry hentry => ?_)
  obtain ⟨⟨⟨name, base⟩, b⟩, -, rfl⟩ := List.mem_map.mp hentry
  change (fieldValue base b).Publishable depth
  unfold fieldValue
  split
  · exact publishable_null
  · exact publishable_ofInt _

theorem publishes_readBool : readBool.Publishes depth := by
  refine (yields_true _).bind fun b _ => ?_
  split
  · exact yields_pure (publishable_bool false)
  · exact yields_pure (publishable_bool true)
  · exact yields_pure publishable_null
  · exact yields_throw _

theorem publishable_bitsValue (count n : Nat) : (bitsValue count n).Publishable (depth + 1) := by
  refine publishable_list fun v hv => ?_
  obtain ⟨i, -, rfl⟩ := List.mem_map.mp hv
  exact publishable_bool _

theorem publishable_attributeValue (cluster : Option Cluster) {id : Nat} (h : id < UInt64.size) :
    (attributeValue cluster id).Publishable depth := by
  unfold attributeValue
  split
  · exact publishable_text _
  · exact publishable_ofNat h

/-- Lists of bits or bytes and records of numbers: one level. -/
theorem publishes_readFlat (cluster : Option Cluster) (t : Datatype) :
    (t.readFlat cluster).Publishes (depth + 1) := by
  cases t with
  | data w => exact (yields_true _).map fun bs _ => publishable_ofBytes bs
  | key128 => exact (yields_true _).map fun bs _ => publishable_ofBytes bs
  | bitmap w => exact publishes_readOrNull _ fun n _ => publishable_bitsValue w.bits n
  | unsigned w => exact publishes_readNat w.isLt
  | signed w => exact publishes_readOrNull _ fun n _ => publishable_ofInt _
  | eui64 => exact publishes_readOrNull _ fun n _ => publishable_text _
  | attributeId =>
    exact publishes_readOrNull _ fun n hn =>
      publishable_attributeValue cluster (Nat.lt_trans hn (by decide))
  | bool => exact publishes_readBool
  | semi => exact publishes_readFloat _
  | single => exact publishes_readFloat _
  | double => exact publishes_readFloat _
  | octets size => exact publishes_readCounted size publishable_ofBytes
  | text size => exact publishes_readCounted size fun bs => publishable_text _
  | timeOfDay => exact publishes_readFields _
  | date => exact publishes_readFields _
  | noData => exact yields_pure publishable_null
  | unknown => exact yields_pure publishable_null
  | sequence kind => exact yields_pure publishable_null
  | struct => exact yields_pure publishable_null
  | _ => exact publishes_readNat (by decide)

theorem publishes_readTagged {read : Datatype → Reader Value} (h : ∀ t, (read t).Publishes depth) :
    (readTagged read).Publishes (depth + 1) :=
  (yields_true _).bind fun t _ => (h t).bind fun _ hv =>
    yields_pure (publishable_pair (publishable_text t.name) hv)

theorem publishes_readItems {item : Reader Value} (h : item.Publishes depth) :
    (readItems item).Publishes (depth + 1) := by
  refine (yields_true _).bind fun count _ => ?_
  split
  · exact yields_pure publishable_null
  · refine (Yields.timesFrom h ?_ count).bind fun vs hvs => yields_pure (publishable_list hvs)
    exact fun v hv => absurd hv List.not_mem_nil

/-- A list and a record for each value inside a value. -/
theorem publishes_datatype (cluster : Option Cluster) (room : Nat) (t : Datatype) :
    (t.read cluster room).Publishes (2 * room + 1) := by
  induction room generalizing t with
  | zero =>
    cases t with
    | sequence kind => exact yields_throw _
    | struct => exact yields_throw _
    | _ => exact publishes_readFlat cluster _
  | succ room ih =>
    cases t with
    | sequence kind =>
      refine (yields_true _).bind fun element _ => ?_
      -- the record around the list of elements is the second level
      refine Yields.bind (publishes_readItems (ih element)) fun v hv => yields_pure ?_
      exact publishable_pair (publishable_text element.name) hv
    | struct => exact publishes_readItems (publishes_readTagged ih)
    | _ => exact publishes_readFlat cluster _

/-! ## Payload types -/

namespace PayloadType

mutual

theorem publishes_read (cluster : Option Cluster) (room : Nat) (type : PayloadType) :
    (type.read cluster room).Publishes (2 * room + 2) := by
  match room, type with
  | room, variant => exact publishes_readTagged (publishes_datatype cluster room)
  | room, scalar t => exact (publishes_datatype cluster room t).mono (Nat.le_succ _)
  | 0, object _ => exact yields_throw _
  | room + 1, object properties =>
    refine Yields.map (publishes_readProperties cluster room properties ?_) fun fields hfields => ?_
    · exact fun entry hentry => absurd hentry List.not_mem_nil
    · exact (publishable_record hfields).mono (Nat.le_succ _)
  | 0, repeated _ => exact yields_throw _
  | room + 1, repeated item =>
    refine Yields.map (Yields.untilEndFrom (publishes_read cluster room item) ?_) fun vs hvs => ?_
    · exact fun v hv => absurd hv List.not_mem_nil
    · exact (publishable_list hvs).mono (Nat.le_succ _)
  | room, errorOr inner =>
    refine (yields_true _).bind fun status _ => ?_
    split
    · refine yields_pure (publishable_ofFields ?_)
      simp only [List.forall_mem_singleton]
      exact publishable_ofByte status
    · match room with
      | 0 => exact yields_throw _
      | room + 1 =>
        refine (publishes_read cluster room inner).bind fun v hv => yields_pure ?_
        exact (publishable_pair (publishable_ofByte status) hv).mono (Nat.le_succ _)

theorem publishes_readProperties (cluster : Option Cluster) (room : Nat)
    (properties : List (String × PayloadType)) {fields : Fields Value}
    (h : ∀ entry ∈ fields, entry.2.Publishable (2 * room + 2)) :
    (readProperties cluster room fields properties).Yields
      fun fields => ∀ entry ∈ fields, entry.2.Publishable (2 * room + 2) := by
  match properties with
  | [] => exact yields_pure h
  | (name, type) :: rest =>
    refine (publishes_read cluster room type).bind fun v hv => ?_
    refine publishes_readProperties cluster room rest fun entry hentry => ?_
    rcases Fields.mem_set hentry with rfl | hentry
    · exact hv
    · exact h entry hentry

end

/-! ## The law -/

/-- Whatever a message is read as can be published. At no place in it stands a NaN or a whole number
as a `uint` that an `int` could hold, and at most 66 lists and records stand inside each other, so
its JSON text can be read. -/
theorem a_read_value_can_be_published (cluster : Option Cluster) (type : PayloadType) (bs : Bytes)
    (v : Value) (rest : Bytes) (h : type.decode cluster bs = .ok (v, rest)) :
    v.NoNaN ∧ v.Normal ∧ v.nesting ≤ 66 ∧ Json.read? (Json.compact v) = some v.asJson := by
  have hv : v.Publishable 66 := publishes_read cluster maxNesting type bs v rest h
  have hlimit : v.nesting < Json.nestingLimit := Nat.lt_of_le_of_lt hv.nesting (by decide)
  exact ⟨hv.noNaN, hv.normal, hv.nesting, Json.read?_compact hlimit⟩

/-- A struct of a NaN, which is read as null, and a number that only a `uint` can hold. -/
theorem a_struct_of_extremes_can_be_published :
    let v := Value.typed "struct"
      (.list [.typed "single" .null, .typed "uint64" (.uint 0xfffffffffffffffe)])
    variant.decode none [0x4c, 0x02, 0x00, 0x39, 0x00, 0x00, 0xc0, 0x7f,
        0x27, 0xfe, 0xff, 0xff, 0xff, 0xff, 0xff, 0xff, 0xff] = .ok (v, []) ∧
      v.NoNaN ∧ v.Normal ∧ v.nesting ≤ 66 ∧ Json.read? (Json.compact v) = some v.asJson := by
  intro v
  have hread : variant.decode none [0x4c, 0x02, 0x00, 0x39, 0x00, 0x00, 0xc0, 0x7f,
      0x27, 0xfe, 0xff, 0xff, 0xff, 0xff, 0xff, 0xff, 0xff] = .ok (v, []) := by rfl
  exact ⟨hread, a_read_value_can_be_published none variant _ v [] hread⟩

end PayloadType

end ZigbeeGateway
