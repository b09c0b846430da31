-- Heartbeats in reports. What is read as a heartbeat are the bytes that came over the air, in
-- whichever kind of string they came. All other attributes stay as they were read.
import ZigbeeGateway.Proofs.Gateway.Reports
import ZigbeeGateway.Proofs.Payload.Leaves
namespace ZigbeeGateway

open LittleEndian

/-! ## Strings on the air -/

/-- Bytes that are a string with some content: the tag of its datatype, the length of the content,
and the content. -/
inductive IsString (content : Bytes) : Bytes → Prop
  | octets (size : LengthSize) (hshort : content.length < allOnes size.bytes) :
      IsString content ((Datatype.octets size).tag :: (bytes size.bytes content.length ++ content))
  | text (size : LengthSize) (hshort : content.length < allOnes size.bytes) :
      IsString content ((Datatype.text size).tag :: (bytes size.bytes content.length ++ content))

theorem mapM_map_eq_some {α β : Type} {f : β → Option α} {g : α → β} (h : ∀ x, f (g x) = some x)
    (xs : List α) : (xs.map g).mapM f = some xs := by
  induction xs with
  | nil => rfl
  | cons x xs ih => simp [h, ih]

namespace Heartbeat

/-- The bytes of a text are the numbers of its characters. -/
theorem bytes?_latinValue (content : Bytes) : bytes? (latinValue content) = some content := by
  simp only [latinValue, bytes?, String.toList_ofList]
  apply mapM_map_eq_some
  intro b
  have hb : b.toNat < 256 := b.toNat_lt
  rw [toNat_char_ofNat, if_pos hb, UInt8.ofNat_toNat]

theorem bytes?_ofBytes (content : Bytes) : bytes? (.ofBytes content) = some content :=
  mapM_map_eq_some Value.toByte?_ofByte content

end Heartbeat

namespace PayloadType

variable {cluster : Option Cluster} {content bs rest : Bytes} {v : Value}

theorem variant_run {t : Datatype} {s : Bytes} (h : t.read cluster maxNesting bs = .ok (v, s)) :
    variant.decode cluster (t.tag :: bs) = .ok (.typed t.name v, s) := by
  have htagged : readTagged (Datatype.read cluster maxNesting) (t.tag :: bs) =
      .ok (.typed t.name v, s) := by
    rw [readTagged, Reader.bind_run (readTag_run t bs), Reader.bind_run h]
    rfl
  exact htagged

theorem counted_reads {t : Datatype} {size : LengthSize} {meaning : Bytes → Value}
    (ht : t.read cluster maxNesting = readCounted size meaning)
    (hshort : content.length < allOnes size.bytes)
    (h : variant.decode cluster (t.tag :: (bytes size.bytes content.length ++ content)) =
      .ok (v, rest)) : v = .typed t.name (meaning content) := by
  have hcounted := readCounted_run hshort meaning []
  rw [List.append_nil, ← ht] at hcounted
  rw [variant_run hcounted] at h
  cases h
  rfl

/-- However a string is given, its content can be taken from the value that it is read as. -/
theorem string_reads (hstring : IsString content bs)
    (h : variant.decode cluster bs = .ok (v, rest)) :
    (v.get? "value").bind Heartbeat.bytes? = some content := by
  cases hstring with
  | octets size hshort =>
    rw [counted_reads rfl hshort h]
    exact Heartbeat.bytes?_ofBytes content
  | text size hshort =>
    rw [counted_reads rfl hshort h]
    exact Heartbeat.bytes?_latinValue content

end PayloadType

namespace Handler

open Radio (IncomingMessage)

/-! ## Heartbeats in reports -/

theorem attributeNumber?_of_toNat? (cluster : Cluster) {v : Value} {n : Nat}
    (h : v.toNat? = some n) : attributeNumber? cluster v = some n := by
  unfold attributeNumber?
  split
  · cases h
  · exact h

/-- The number of an attribute comes back, whether or not the cluster has a name for it. -/
theorem attributeNumber?_attributeValue (cluster : Cluster) {n : Nat} (hn : n < limit 2) :
    attributeNumber? cluster (attributeValue (some cluster) n) = some n := by
  unfold attributeValue
  rw [Option.bind_some]
  cases hinfo : cluster.attributes.withId? n with
  | some info =>
    obtain ⟨hid, hname⟩ := Table.withName?_of_withId? hinfo
    exact Option.map_eq_some_iff.mpr ⟨info, hname, hid⟩
  | none =>
    apply attributeNumber?_of_toNat?
    exact Value.toNat?_ofNat (Nat.lt_trans hn (by decide))

/-- The attribute of the heartbeat is told by its two bytes. -/
theorem attributeNumber?_reads {cluster : Cluster} {part : ReceivedProperty (some cluster)}
    (htype : part.type = .scalar .attributeId) :
    attributeNumber? cluster part.value = some Heartbeat.attributeId.toNat ↔
      part.bytes = [0x01, 0xff] := by
  obtain ⟨n, hlt, hbytes, hvalue⟩ := attribute_reads htype
  rw [hbytes, hvalue]
  split
  · rename_i hnone
    subst hnone
    have hnumber : attributeNumber? cluster .null = none := rfl
    rw [hnumber]
    decide
  · rw [attributeNumber?_attributeValue cluster hlt, Option.some.injEq]
    constructor
    · rintro rfl
      rfl
    · intro hsame
      have hback := value_bytes 2 n
      rw [hsame, Nat.mod_eq_of_lt hlt] at hback
      exact hback.symm

/-- An attribute and its value in a report, and what they come to for the bus. A heartbeat that is a
string is given by its items if the content can be read as items, and as it was read if not. All
other attributes are given as they were read. -/
structure ComesTo {cluster : Cluster} (attr value : ReceivedProperty (some cluster))
    (payload : Value) : Prop where
  items : ∀ content items, cluster.id = 0x0000 → attr.bytes = [0x01, 0xff] →
    IsString content value.bytes → Heartbeat.decode content = .ok items →
    payload = .typed "xiaomi_ff01" items
  noItems : ∀ content e, cluster.id = 0x0000 → attr.bytes = [0x01, 0xff] →
    IsString content value.bytes → Heartbeat.decode content = .error e → payload = value.value
  other : cluster.id ≠ 0x0000 ∨ attr.bytes ≠ [0x01, 0xff] → payload = value.value

theorem comesTo_expand {cluster : Cluster} {attr value : ReceivedProperty (some cluster)}
    (hattr : attr.type = .scalar .attributeId) (hvalue : value.type = .variant) :
    ComesTo attr value (expand cluster attr.value value.value) := by
  have hreads := value.reads
  rw [hvalue] at hreads
  have hnumber := attributeNumber?_reads hattr
  constructor
  · intro content items hcluster hbytes hstring hitems
    unfold expand
    rw [if_pos ⟨hcluster, hnumber.mpr hbytes⟩, PayloadType.string_reads hstring hreads]
    simp only [hitems]
    rfl
  · intro content e hcluster hbytes hstring herror
    unfold expand
    rw [if_pos ⟨hcluster, hnumber.mpr hbytes⟩, PayloadType.string_reads hstring hreads]
    simp only [herror]
  · intro hother
    unfold expand
    rw [if_neg]
    rintro ⟨hcluster, hn⟩
    rcases hother with hno | hno
    · exact hno hcluster
    · exact hno (hnumber.mp hn)

/-! ## The law -/

/-- With a schema that was loaded from a text, whether or not it has a name for the attribute of the
heartbeat, every record of a report comes to what its bytes on the air hold: a heartbeat to the items
in the content of its string if there are any to read, and everything else to what was read. -/
theorem a_heartbeat_is_read_from_the_air {text : String} {h : Handler} {address : UInt64}
    {m : IncomingMessage} {ps : List Publication} (hload : Schema.load text = .ok h.schema)
    (hps : h.publications address m = .ok ps) :
    ∃ u : Understood h m, u.IsReport → ∃ report : Report u,
      List.Forall₂ (fun r p => ∃ attr value, report.Says r attr value ∧
        ComesTo attr value p.payload) report.records ps := by
  obtain ⟨u, hrecords, -⟩ := exists_published hload hps
  refine ⟨u, ?_⟩
  intro hreport
  obtain ⟨report, hpublished⟩ := hrecords hreport
  refine ⟨report, hpublished.imp ?_⟩
  rintro r p ⟨attr, value, hsays, rfl⟩
  refine ⟨attr, value, hsays, ?_⟩
  exact comesTo_expand (congrArg Prod.snd hsays.attr_property)
    (congrArg Prod.snd hsays.value_property)

/-- Two attributes of a device have the same text. One of them is the heartbeat, which has a name in
this schema. -/
theorem only_the_heartbeat_is_expanded :
    let m := messageFor 0 [0x18, 0x05, 0x0a, 0x01, 0xff, 0x42, 0x04, 0x01, 0x21, 0xd1, 0x0b,
      0x05, 0x00, 0x42, 0x04, 0x01, 0x21, 0xd1, 0x0b]
    ∃ s ps, Schema.load reportSchema = .ok s ∧
      (fresh s "zhub" 1).publications 0x00158d000183f519 m = .ok ps ∧
      ps.map (fun p => (p.payload.get? "type").bind Value.toText?) =
        [some "xiaomi_ff01", some "string"] ∧
      ∃ (u : Understood (fresh s "zhub" 1) m) (report : Report u),
        List.Forall₂ (fun r p => ∃ attr value, report.Says r attr value ∧
          ComesTo attr value p.payload) report.records ps := by
  intro m
  have hfound : ((Schema.load reportSchema).toOption.map fun s =>
      ((s.globalCommands.withId? 0x0a).bind (reportShape? ·.payload),
        ((fresh s "zhub" 1).publications 0x00158d000183f519 m).toOption.map
          fun ps => ps.map fun p => (p.payload.get? "type").bind Value.toText?)) =
      some (some ⟨"reports", "attribute", "data"⟩,
        some [some "xiaomi_ff01", some "string"]) := by
    unfold Schema.load Info.parse reportSchema
    rw [String.toList_ofList]
    decide +kernel
  rcases hload : Schema.load reportSchema with e | s
  · rw [hload] at hfound
    cases hfound
  · rw [hload] at hfound
    obtain ⟨hshape, htypes⟩ := Prod.mk.inj (Option.some.inj hfound)
    rcases hps : (fresh s "zhub" 1).publications 0x00158d000183f519 m with e | ps
    · rw [hps] at htypes
      cases htypes
    · rw [hps] at htypes
      obtain ⟨u, hrecords⟩ := a_heartbeat_is_read_from_the_air hload hps
      have hreport : u.IsReport := by
        have hheader : (Zcl.Frame.decode m.data).toOption.map
            (fun frame => (frame.header.frameType, frame.header.command)) = some (.global, 0x0a) :=
          rfl
        rw [u.decodes] at hheader
        obtain ⟨hglobal, hnumber⟩ := Prod.mk.inj (Option.some.inj hheader)
        rcases commandOf_eq_ok u.commandKnown with ⟨-, hcommand⟩ | ⟨hspecific, -⟩
        · rw [hnumber] at hcommand
          obtain ⟨command, hten, hshape⟩ := Option.bind_eq_some_iff.mp hshape
          obtain rfl : command = u.command := Option.some.inj (hten.symm.trans hcommand)
          obtain ⟨record, hshaped⟩ := shaped_of_reportShape? hshape
          exact ⟨hglobal, hnumber, hshaped.listsRecords⟩
        · rw [hglobal] at hspecific
          cases hspecific
      obtain ⟨report, hall⟩ := hrecords hreport
      exact ⟨s, ps, rfl, hps, Option.some.inj htypes, u, report, hall⟩

end Handler

end ZigbeeGateway
