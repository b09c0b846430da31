-- Spellings of values that are put together by a payload type: records of properties, values that
-- may be errors, and repetitions up to the end of the message.
import ZigbeeGateway.Proofs.Payload.Spelling
namespace ZigbeeGateway

variable {rc wc : Option Cluster} {room : Nat} {toEnd : Prop}

namespace PayloadType

/-! ## Distinct names -/

mutual

/-- Whether no record of a type has two properties of one name. -/
def distinctNames : PayloadType → Bool
  | variant => true
  | scalar _ => true
  | object properties => decide (properties.map Prod.fst).Nodup && allDistinctNames properties
  | repeated item => item.distinctNames
  | errorOr inner => inner.distinctNames

/-- Whether that holds of each of the properties. -/
def allDistinctNames : List (String × PayloadType) → Bool
  | [] => true
  | (_, type) :: rest => type.distinctNames && allDistinctNames rest

end

/-! ## Records -/

/-- The bytes are read as the values of some properties, one after the other, and any record with
these values is written as the bytes. -/
structure SpellsProperties (rc wc : Option Cluster) (room : Nat) (toEnd : Prop)
    (properties : Properties) (entries : List (String × Value)) (bs : Bytes) : Prop where
  names : entries.map Prod.fst = properties.map Prod.fst
  reads : ∀ fields s, (toEnd → s = []) → readProperties rc room fields properties (bs ++ s) =
    .ok (Fields.setAll entries fields, s)
  writes : ∀ v : Value, (∀ entry ∈ entries, v.getOrNull entry.1 = entry.2) →
    (writeProperties wc room v properties).Writes bs
  writesJson : ∀ v : Value, (∀ entry ∈ entries, v.getOrNull entry.1 = entry.2.asJson) →
    (writeProperties wc room v properties).Writes bs

namespace SpellsProperties

theorem nil : SpellsProperties rc wc room toEnd [] [] [] where
  names := rfl
  reads _ _ _ := rfl
  writes _ _ := Writer.writes_pure
  writesJson _ _ := Writer.writes_pure

theorem mono {properties : Properties} {entries : List (String × Value)} {bs : Bytes}
    {toEnd' : Prop} (h : SpellsProperties rc wc room toEnd properties entries bs)
    (hend : toEnd → toEnd') : SpellsProperties rc wc room toEnd' properties entries bs where
  names := h.names
  reads fields s hs := h.reads fields s fun he => hs (hend he)
  writes := h.writes
  writesJson := h.writesJson

/-- A property that goes up to the end of the message has nothing after it. -/
theorem cons {name : String} {type : PayloadType} {rest : Properties} {v : Value}
    {entries : List (String × Value)} {bs bs' : Bytes} {itsEnd : Prop}
    (h : Spells (type.read rc room) (type.write wc room) itsEnd v bs)
    (hrest : SpellsProperties rc wc room toEnd rest entries bs')
    (hend : itsEnd → bs' = [] ∧ toEnd) :
    SpellsProperties rc wc room toEnd ((name, type) :: rest) ((name, v) :: entries) (bs ++ bs') where
  names := by rw [List.map_cons, List.map_cons, hrest.names]
  reads fields s hs := by
    have hfirst : type.read rc room (bs ++ (bs' ++ s)) = .ok (v, bs' ++ s) := by
      refine h.reads _ fun he => ?_
      obtain ⟨hbs', hto⟩ := hend he
      rw [hbs', hs hto]
      rfl
    rw [readProperties, List.append_assoc, Reader.bind_run hfirst, hrest.reads _ s hs]
    rfl
  writes u hu := by
    obtain ⟨hv, hentries⟩ := List.forall_mem_cons.mp hu
    have hfirst : (type.write wc room (u.getOrNull name)).Writes bs := by
      rw [hv]
      exact h.writes
    exact (hfirst.inside name).then (hrest.writes u hentries)
  writesJson u hu := by
    obtain ⟨hv, hentries⟩ := List.forall_mem_cons.mp hu
    have hfirst : (type.write wc room (u.getOrNull name)).Writes bs := by
      rw [hv]
      exact h.writesJson
    exact (hfirst.inside name).then (hrest.writesJson u hentries)

theorem getOrNull_ofFields {entries : List (String × Value)}
    (h : (entries.map Prod.fst).Nodup) :
    ∀ entry ∈ entries, (Value.ofFields entries).getOrNull entry.1 = entry.2 := by
  intro entry he
  simp only [Value.ofFields, Value.getOrNull, Value.get?, Fields.get?_ofList h he,
    Option.getD_some]

/-- Properties with distinct names make a record. -/
theorem object {properties : Properties} {entries : List (String × Value)} {bs : Bytes}
    (h : SpellsProperties rc wc room toEnd properties entries bs)
    (hnames : (properties.map Prod.fst).Nodup) :
    Spells ((object properties).read rc (room + 1)) ((PayloadType.object properties).write wc (room + 1))
      toEnd (.ofFields entries) bs where
  reads s hs := by
    rw [read, Reader.map_run (h.reads [] s hs)]
    rfl
  writes := by
    rw [write]
    exact h.writes _ (getOrNull_ofFields (h.names ▸ hnames))
  writesJson := by
    rw [Value.asJson_ofFields, write]
    refine h.writesJson _ fun entry he => ?_
    have hmap : ((entries.map fun entry => (entry.1, entry.2.asJson)).map Prod.fst).Nodup := by
      rw [List.map_map]
      exact h.names ▸ hnames
    exact getOrNull_ofFields hmap _ (List.mem_map_of_mem he)

end SpellsProperties

/-! ## Values that may be errors -/

variable {inner : PayloadType} {v : Value} {bs : Bytes}

theorem statusOf_ofByte {status : UInt8} {fields : Fields Value} (type : PayloadType)
    (h : (Value.record fields).getOrNull "status" = .ofByte status) :
    type.statusOf (.record fields) = .ok status := by
  have hnull : (Value.ofByte status).isNull = false := by
    rw [Value.ofByte, Value.ofNat]
    split <;> rfl
  simp only [statusOf, Value.toFields?, h, hnull, Value.toByte?_ofByte, Bool.false_eq_true,
    if_false]

/-- A status other than zero stands alone. -/
theorem spells_error {status : UInt8} (h : status ≠ 0) :
    Spells ((errorOr inner).read rc room) ((errorOr inner).write wc room) toEnd
      (.ofFields [("status", .ofByte status)]) [status] := by
  refine .of_asJson ?_ (fun s => ?_) ?_
  · rw [Value.asJson_ofFields, List.map_singleton, Value.asJson_ofByte]
  · rw [read, List.singleton_append, Reader.bind_run (Reader.byte_run status s), if_pos h]
    rfl
  · have hstatus : (errorOr inner).statusOf (.ofFields [("status", .ofByte status)]) = .ok status :=
      statusOf_ofByte _ rfl
    rw [write_errorOr hstatus, if_pos h]
    exact (Writer.writes_bytes [status]).then Writer.writes_pure

theorem writes_success {v : Value} (h : (inner.write wc room v).Writes bs) :
    ((errorOr inner).write wc (room + 1)
      (.ofFields [("status", .ofByte 0), ("value", v)])).Writes (0 :: bs) := by
  have hstatus : (errorOr inner).statusOf (.ofFields [("status", .ofByte 0), ("value", v)]) =
      .ok 0 := statusOf_ofByte _ rfl
  have hvalue : (Value.ofFields [("status", .ofByte 0), ("value", v)]).getOrNull "value" = v := rfl
  rw [write_errorOr hstatus, if_neg (not_not_intro rfl), writeSuccess, hvalue]
  exact (Writer.writes_bytes [0]).then (h.inside "value")

/-- A status of zero has the spelling of the value behind it. -/
theorem spells_success (h : Spells (inner.read rc room) (inner.write wc room) toEnd v bs) :
    Spells ((errorOr inner).read rc (room + 1)) ((errorOr inner).write wc (room + 1)) toEnd
      (.ofFields [("status", .ofByte 0), ("value", v)]) (0 :: bs) where
  reads s hs := by
    rw [read, List.cons_append, Reader.bind_run (Reader.byte_run 0 _)]
    simp only [ne_eq, not_true_eq_false, if_false]
    rw [Reader.bind_run (h.reads s hs)]
    rfl
  writes := writes_success h.writes
  writesJson := by
    rw [Value.asJson_ofFields]
    exact writes_success h.writesJson

/-! ## Repetitions -/

/-- Up to the end of the message the bytes are read as some values one after the other, and these
are written as the bytes. -/
structure SpellsItems (r : Reader Value) (w : Value → Writer) (vs : List Value) (bs : Bytes) :
    Prop where
  reads : ∀ stuck before, Reader.untilEndFrom r stuck before bs = .ok (before.reverse ++ vs, [])
  writes : (Writer.each w vs).Writes bs
  writesJson : (Writer.each w (vs.map Value.asJson)).Writes bs

namespace SpellsItems

variable {r : Reader Value} {w : Value → Writer} {vs : List Value} {bs' : Bytes}

theorem nil (r : Reader Value) (w : Value → Writer) : SpellsItems r w [] [] where
  reads stuck before := by
    rw [Reader.untilEndFrom_nil, List.append_nil]
  writes := Writer.writes_pure
  writesJson := Writer.writes_pure

/-- An item takes at least one byte, and one that goes up to the end has no others after it. -/
theorem cons {itsEnd : Prop} (h : Spells r w itsEnd v bs) (hne : bs ≠ [])
    (hend : itsEnd → bs' = []) (hrest : SpellsItems r w vs bs') :
    SpellsItems r w (v :: vs) (bs ++ bs') where
  reads stuck before := by
    rw [Reader.untilEndFrom_piece stuck before hne (h.reads bs' hend), hrest.reads,
      List.reverse_cons, List.append_assoc, List.singleton_append]
  writes := h.writes.then hrest.writes
  writesJson := h.writesJson.then hrest.writesJson

theorem of_forall₂ {bss : List Bytes} (h : List.Forall₂ (Spells r w False) vs bss)
    (hne : ∀ bs ∈ bss, bs ≠ []) : SpellsItems r w vs bss.flatten := by
  induction h with
  | nil => exact nil r w
  | cons hv _ ih =>
    rw [List.forall_mem_cons] at hne
    exact cons hv hne.1 False.elim (ih hne.2)

/-- Items up to the end of the message make a list. -/
theorem repeated {item : PayloadType}
    (h : SpellsItems (item.read rc room) (item.write wc room) vs bs) :
    Spells ((repeated item).read rc (room + 1)) ((PayloadType.repeated item).write wc (room + 1)) True
      (.list vs) bs where
  reads s hs := by
    rw [hs trivial, List.append_nil, read]
    exact Reader.map_run (h.reads _ [])
  writes := by
    rw [write]
    exact h.writes
  writesJson := by
    rw [Value.asJson_list, write]
    exact h.writesJson

end SpellsItems

end PayloadType

end ZigbeeGateway
