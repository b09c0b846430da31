-- Values and the bytes that spell them. A spelling is read as its value and the value is written
-- as the spelling, also after the value has been JSON. Spellings of parts make spellings of
-- values that hold them.
import ZigbeeGateway.Proofs.Json.Meaning
import ZigbeeGateway.Proofs.Payload.ReaderRuns
import ZigbeeGateway.Proofs.Payload.Written
namespace ZigbeeGateway

open LittleEndian

/-! ## Tags -/

theorem readTag_run (t : Datatype) (s : Bytes) : readTag (t.tag :: s) = .ok (t, s) := by
  rw [readTag, Reader.bind_run (Reader.byte_run t.tag s), Datatype.ofTag?_tag]
  rfl

theorem readTag_eq_ok {t : Datatype} {bs rest : Bytes} (h : readTag bs = .ok (t, rest)) :
    bs = t.tag :: rest := by
  obtain ⟨tag, mid, htag, ht⟩ := Reader.bind_eq_ok h
  rw [Reader.byte_eq_ok htag]
  rcases hfind : Datatype.ofTag? tag with _ | t'
  · simp only [hfind] at ht
    cases ht
  · simp only [hfind] at ht
    cases ht
    rw [show t.tag = tag by simpa using List.find?_some hfind]

theorem namedType_name {v : Value} {field : String} {t : Datatype} (missing : WriteError)
    (unknown : String → WriteError) (h : v.get? field = some (.text t.name)) :
    namedType field v missing unknown = .ok t := by
  simp only [namedType, h, Option.bind_some, Value.toText?, Datatype.ofName?_name]

/-! ## Spellings -/

/-- The bytes are read as the value and the value is written as the bytes. If `toEnd` holds, that
is so only for bytes that go up to the end of the message. -/
structure Spells (r : Reader Value) (w : Value → Writer) (toEnd : Prop) (v : Value) (bs : Bytes) :
    Prop where
  reads : ∀ s, (toEnd → s = []) → r (bs ++ s) = .ok (v, s)
  writes : (w v).Writes bs
  writesJson : (w v.asJson).Writes bs

namespace Spells

variable {r : Reader Value} {w : Value → Writer} {toEnd : Prop} {v : Value} {bs : Bytes}

theorem mono {toEnd' : Prop} (h : Spells r w toEnd v bs) (hend : toEnd → toEnd') :
    Spells r w toEnd' v bs where
  reads s hs := h.reads s fun he => hs (hend he)
  writes := h.writes
  writesJson := h.writesJson

theorem anywhere (h : Spells r w False v bs) (toEnd : Prop) : Spells r w toEnd v bs :=
  h.mono False.elim

theorem reads_anywhere (h : Spells r w False v bs) (s : Bytes) : r (bs ++ s) = .ok (v, s) :=
  h.reads s False.elim

/-- A value that JSON keeps as it is needs to be written only once. -/
theorem of_asJson (hjson : v.asJson = v) (hreads : ∀ s, r (bs ++ s) = .ok (v, s))
    (hwrites : (w v).Writes bs) : Spells r w toEnd v bs where
  reads s _ := hreads s
  writes := hwrites
  writesJson := by
    rw [hjson]
    exact hwrites

/-! ## Values that name their datatype -/

theorem asJson_typed (keyword : String) (v : Value) :
    (Value.typed keyword v).asJson = .typed keyword v.asJson :=
  Value.asJson_ofFields _

theorem writes_typed {write : Datatype → Value → Writer} {t : Datatype}
    (h : (write t v).Writes bs) : (writeTagged write (.typed t.name v)).Writes (t.tag :: bs) := by
  have hname : namedType "type" (.typed t.name v) .variantWithoutType .variantUnknownType = .ok t :=
    namedType_name _ _ rfl
  have hrecord : Value.typed t.name v =
      .record (Fields.ofList [("type", .text t.name), ("value", v)]) := rfl
  rw [hrecord] at hname ⊢
  simp only [writeTagged, hname]
  exact (Writer.writes_bytes [t.tag]).then h

/-- A tag and the spelling of a value of its datatype. -/
theorem tagged {read : Datatype → Reader Value} {write : Datatype → Value → Writer} {t : Datatype}
    (h : Spells (read t) (write t) toEnd v bs) :
    Spells (readTagged read) (writeTagged write) toEnd (.typed t.name v) (t.tag :: bs) where
  reads s hs := by
    rw [readTagged, List.cons_append, Reader.bind_run (readTag_run t _),
      Reader.bind_run (h.reads s hs)]
    rfl
  writes := writes_typed h.writes
  writesJson := by
    rw [asJson_typed]
    exact writes_typed h.writesJson

/-! ## Counted items -/

theorem timesFrom_run {vs : List Value} {bss : List Bytes}
    (h : List.Forall₂ (fun v bs => ∀ s, r (bs ++ s) = .ok (v, s)) vs bss) (before : List Value)
    (s : Bytes) :
    Reader.timesFrom r before vs.length (bss.flatten ++ s) = .ok (before.reverse ++ vs, s) := by
  induction h generalizing before with
  | nil => simp [Reader.timesFrom, Reader.pure_run]
  | cons hv _ ih =>
    rw [List.flatten_cons, List.append_assoc, List.length_cons, Reader.timesFrom,
      Reader.bind_run (hv _), ih, List.reverse_cons, List.append_assoc]
    rfl

theorem noItems (item : Reader Value) (w : Value → Writer) (tooMany : WriteError)
    (mismatch : Value → WriteError) :
    Spells (readItems item) (fun v => writeItems w tooMany (mismatch v) v) toEnd .null
      (bytes 2 (allOnes 2)) := by
  refine of_asJson rfl (fun s => ?_) (Writer.writes_number 2 (allOnes 2))
  rw [readItems, Reader.bind_run (Reader.number_run (by decide) s)]
  rfl

/-- A count and the spellings of that many values. -/
theorem items {vs : List Value} {bss : List Bytes} (tooMany : WriteError)
    (mismatch : Value → WriteError) (h : List.Forall₂ (Spells r w False) vs bss)
    (hfew : vs.length < allOnes 2) :
    Spells (readItems r) (fun v => writeItems w tooMany (mismatch v) v) toEnd (.list vs)
      (bytes 2 vs.length ++ bss.flatten) := by
  have hwrites : ∀ ws : List Value, ws.length = vs.length →
      List.Forall₂ (fun v bs => (w v).Writes bs) ws bss →
      (writeItems w tooMany (mismatch (.list ws)) (.list ws)).Writes
        (bytes 2 vs.length ++ bss.flatten) := by
    intro ws hlen hws
    rw [writeItems, if_neg (by omega), ← hlen]
    exact (Writer.writes_number 2 ws.length).then (Writer.writes_each hws)
  refine ⟨fun s _ => ?_, hwrites vs rfl (h.imp fun _ _ hv => hv.writes), ?_⟩
  · have hcount : vs.length < limit 2 := Nat.lt_trans hfew (by decide)
    have hreads := timesFrom_run (h.imp fun _ _ hv => hv.reads_anywhere) [] s
    rw [readItems, List.append_assoc, Reader.bind_run (Reader.number_run hcount _),
      if_neg (by omega), Reader.times, Reader.bind_run hreads]
    rfl
  · rw [Value.asJson_list]
    refine hwrites _ (List.length_map _) ?_
    exact List.forall₂_map_left_iff.mpr (h.imp fun _ _ hv => hv.writesJson)

theorem asJson_elements (keyword : String) (v : Value) :
    (Value.ofFields [("element_type", .text keyword), ("elements", v)]).asJson =
      .ofFields [("element_type", .text keyword), ("elements", v.asJson)] :=
  Value.asJson_ofFields _

variable {rc wc : Option Cluster} {room : Nat}

/-- The tag of the elements and the spelling of what they are. -/
theorem sequence {kind : SequenceKind} {element : Datatype}
    (h : Spells (readItems (element.read rc room)) (fun v => writeItems (element.write wc room)
      (.tooManyElements (.sequence kind)) (.unfit (.sequence kind) "array of elements" v) v)
      toEnd v bs) :
    Spells ((Datatype.sequence kind).read rc (room + 1))
      ((Datatype.sequence kind).write wc (room + 1)) toEnd
      (.ofFields [("element_type", .text element.name), ("elements", v)]) (element.tag :: bs) := by
  have hwrites : ∀ v : Value, (writeItems (element.write wc room) (.tooManyElements
      (.sequence kind)) (.unfit (.sequence kind) "array of elements" v) v).Writes bs →
      ((Datatype.sequence kind).write wc (room + 1)
        (.ofFields [("element_type", .text element.name), ("elements", v)])).Writes
        (element.tag :: bs) := by
    intro v hv
    rw [Datatype.write, namedType_name _ _ rfl]
    exact (Writer.writes_bytes [element.tag]).then hv
  refine ⟨fun s hs => ?_, hwrites v h.writes, ?_⟩
  · rw [Datatype.read, List.cons_append, Reader.bind_run (readTag_run element _),
      Reader.bind_run (h.reads s hs)]
    rfl
  · rw [asJson_elements]
    exact hwrites _ h.writesJson

end Spells

end ZigbeeGateway
