-- What messages of devices come to. A report of attributes comes to one message for the bus for
-- each of its records, in the order in which they came, and none of them is lost. Every other
-- message comes to one message for the bus with the whole payload.
import ZigbeeGateway.Gateway.Handler
import ZigbeeGateway.Proofs.Payload.Received
import ZigbeeGateway.Proofs.Schema.Consistency
namespace ZigbeeGateway.Handler

open PayloadType
open Radio (IncomingMessage)

/-! ## Properties by their types -/

/-- The first property of a type has a name. -/
def First (type : PayloadType) (name : String) (properties : Properties) : Prop :=
  ∃ before after, properties = before ++ (name, type) :: after ∧ ∀ p ∈ before, p.2 ≠ type

section Properties

variable {type : PayloadType} {name : String} {properties : Properties}
  {wanted : PayloadType → Bool}

theorem First.mem (h : First type name properties) : (name, type) ∈ properties := by
  obtain ⟨before, after, rfl, -⟩ := h
  simp

theorem isAttributeId_iff (type : PayloadType) :
    isAttributeId type = true ↔ type = .scalar .attributeId := by
  unfold isAttributeId
  split <;> simp_all

theorem isVariant_iff (type : PayloadType) : isVariant type = true ↔ type = .variant := by
  cases type <;> simp [isVariant]

theorem propertyName?_eq_some (hwanted : ∀ t, wanted t = true ↔ t = type) :
    propertyName? wanted properties = some name ↔ First type name properties := by
  unfold propertyName?
  rw [Option.map_eq_some_iff]
  constructor
  · rintro ⟨⟨n, t⟩, hfind, rfl⟩
    obtain ⟨ht, before, after, rfl, hbefore⟩ := List.find?_eq_some_iff_append.mp hfind
    obtain rfl : t = type := (hwanted t).mp ht
    refine ⟨before, after, rfl, ?_⟩
    rintro ⟨n', t'⟩ hp rfl
    have hnot := hbefore _ hp
    rw [ht] at hnot
    cases hnot
  · rintro ⟨before, after, rfl, hbefore⟩
    refine ⟨(name, type), ?_, rfl⟩
    apply List.find?_eq_some_iff_append.mpr
    refine ⟨(hwanted type).mpr rfl, before, after, rfl, ?_⟩
    rintro ⟨n, t⟩ hp
    have hnot : wanted t ≠ true := fun he => hbefore _ hp ((hwanted t).mp he)
    simpa using hnot

theorem propertyName?_eq_none (hwanted : ∀ t, wanted t = true ↔ t = type) :
    propertyName? wanted properties = none ↔ ∀ name, (name, type) ∉ properties := by
  unfold propertyName?
  simp only [Option.map_eq_none_iff, List.find?_eq_none, hwanted]
  constructor
  · intro h name hmem
    exact h _ hmem rfl
  · rintro h ⟨name, t⟩ hmem rfl
    exact h name hmem

end Properties

/-! ## The shape of a report -/

/-- A payload that lists records: a property that repeats an object, and in the object the first
attribute and the first value with its datatype. -/
structure Shaped (properties : Properties) (shape : ReportShape) (record : Properties) : Prop where
  list : (shape.list, .repeated (.object record)) ∈ properties
  attr : First (.scalar .attributeId) shape.attr record
  value : First .variant shape.value record

/-- Some property repeats an object that has an attribute and a value with its datatype. -/
def ListsRecords (properties : Properties) : Prop :=
  ∃ list record attr value, (list, .repeated (.object record)) ∈ properties ∧
    (attr, .scalar .attributeId) ∈ record ∧ (value, .variant) ∈ record

section Shapes

variable {properties record : Properties} {list : String} {shape : ReportShape}

theorem mem_of_recordList? (h : recordList? properties = some (list, record)) :
    (list, .repeated (.object record)) ∈ properties := by
  fun_induction recordList? properties with
  | case1 => cases h
  | case2 name record' rest =>
    cases h
    exact List.mem_cons_self
  | case3 property rest _ ih => exact List.mem_cons_of_mem _ (ih h)

/-- Only the last property may repeat something, so the list is found. -/
theorem recordList?_of_mem {before : List String}
    (hcheck : checkProperties before properties = .ok ())
    (h : (list, .repeated (.object record)) ∈ properties) :
    recordList? properties = some (list, record) := by
  fun_induction recordList? properties generalizing before with
  | case1 => cases h
  | case2 name record' rest =>
    obtain ⟨-, -, hlast⟩ := checkProperties_cons hcheck
    obtain rfl := hlast rfl
    simp at h
    obtain ⟨rfl, rfl⟩ := h
    rfl
  | case3 property rest hno ih =>
    obtain ⟨name, type⟩ := property
    obtain ⟨-, hrest, -⟩ := checkProperties_cons hcheck
    rcases List.mem_cons.mp h with he | h
    · exact absurd he.symm (hno list record)
    · exact ih hrest h

theorem shaped_of_reportShape? (h : reportShape? properties = some shape) :
    ∃ record, Shaped properties shape record := by
  unfold reportShape? at h
  simp only [bind, Option.bind_eq_some_iff] at h
  obtain ⟨⟨list, record⟩, hlist, attr, hattr, value, hvalue, he⟩ := h
  cases he
  exact ⟨record, mem_of_recordList? hlist, (propertyName?_eq_some isAttributeId_iff).mp hattr,
    (propertyName?_eq_some isVariant_iff).mp hvalue⟩

theorem Shaped.listsRecords (h : Shaped properties shape record) : ListsRecords properties :=
  ⟨_, _, _, _, h.list, h.attr.mem, h.value.mem⟩

theorem reportShape?_of_listsRecords (hcheck : (object properties).check = .ok ())
    (h : ListsRecords properties) : ∃ shape, reportShape? properties = some shape := by
  obtain ⟨list, record, attr, value, hlist, hattr, hvalue⟩ := h
  have hfind : recordList? properties = some (list, record) := recordList?_of_mem hcheck hlist
  unfold reportShape?
  cases ha : propertyName? isAttributeId record with
  | none => exact absurd hattr ((propertyName?_eq_none isAttributeId_iff).mp ha attr)
  | some a =>
    cases hv : propertyName? isVariant record with
    | none => exact absurd hvalue ((propertyName?_eq_none isVariant_iff).mp hv value)
    | some v => exact ⟨⟨list, a, v⟩, by simp [hfind, ha, hv]⟩

end Shapes

/-! ## What a message says -/

/-- The command of a frame is a global one of the schema or one that comes in to the cluster. -/
theorem commandOf_eq_ok {s : Schema} {cluster : Cluster} {header : Zcl.Header} {command : Command}
    (h : commandOf s cluster header = .ok command) :
    (header.frameType = .global ∧ s.globalCommands.withId? header.command.toNat = some command) ∨
    (header.frameType = .clusterSpecific ∧
      cluster.commandsIn.withId? header.command.toNat = some command) := by
  unfold commandOf at h
  dsimp only at h
  split at h
  · rename_i found hfound
    cases h
    split at hfound
    · exact .inl ⟨‹_›, hfound⟩
    · exact .inr ⟨‹_›, hfound⟩
  · cases h

/-- A message that is understood: the frame in it, the cluster that it is for, the command that the
frame carries and the record that the command has as its payload. -/
structure Understood (h : Handler) (m : IncomingMessage) where
  frame : Zcl.Frame
  cluster : Cluster
  command : Command
  payload : Value
  decodes : Zcl.Frame.decode m.data = .ok frame
  clusterKnown : h.schema.clusters.withId? m.cluster.toNat = some cluster
  commandKnown : commandOf h.schema cluster frame.header = .ok command
  reads : command.decodePayload (some cluster) frame.payload = .ok payload

namespace Understood

variable {h : Handler} {m : IncomingMessage} {address : UInt64} {ps : List Publication}

/-- A topic for what a message says, or for what it says of one attribute. -/
def topic (u : Understood h m) (address : UInt64) (attr : Option String) : String :=
  Topic.report h.first ⟨address, m.sourceEndpoint, u.cluster.name, u.command.name⟩ attr

/-- What a message says of one attribute, for the bus. -/
def published (u : Understood h m) (address : UInt64) (attr value : Value) : Publication :=
  ⟨u.topic address (some (attributeLevel attr)), expand u.cluster attr value⟩

/-- The records of a message if it is a report. -/
def records? (u : Understood h m) : Option (List (Value × Value)) :=
  if u.frame.header.frameType = .global ∧ u.frame.header.command = reportAttributes then
    (reportShape? u.command.payload).bind (Handler.records? · u.payload)
  else none

/-- What has come to messages for the bus is understood. -/
theorem exists_understood (hps : h.publications address m = .ok ps) :
    ∃ u : Understood h m, ps =
      match u.records? with
      | none => [⟨u.topic address none, u.payload⟩]
      | some records => records.map fun (attr, value) => u.published address attr value := by
  unfold publications at hps
  cases hframe : Zcl.Frame.decode m.data with
  | error e => simp [hframe, Except.mapError, bind, Except.bind] at hps
  | ok frame =>
    cases hcluster : h.schema.clusters.withId? m.cluster.toNat with
    | none =>
      simp [hframe, hcluster, Except.mapError, bind, Except.bind, throw, throwThe,
        MonadExceptOf.throw] at hps
    | some cluster =>
      cases hcommand : commandOf h.schema cluster frame.header with
      | error e => simp [hframe, hcluster, hcommand, Except.mapError, bind, Except.bind] at hps
      | ok command =>
        cases hpayload : command.decodePayload (some cluster) frame.payload with
        | error e =>
          simp [hframe, hcluster, hcommand, hpayload, Except.mapError, bind, Except.bind] at hps
        | ok payload =>
          simp only [hframe, hcluster, hcommand, hpayload, Except.mapError, bind,
            Except.bind] at hps
          refine ⟨⟨frame, cluster, command, payload, hframe, hcluster, hcommand, hpayload⟩, ?_⟩
          unfold records?
          split at hps
          · rename_i hrecords
            rw [hrecords]
            cases hps
            rfl
          · rename_i records hrecords
            rw [hrecords]
            cases hps
            rfl

/-- A report of attributes: the global command 0x0A, with a payload that lists records. -/
structure IsReport (u : Understood h m) : Prop where
  isGlobal : u.frame.header.frameType = .global
  number : u.frame.header.command = 0x0a
  lists : ListsRecords u.command.payload

/-- The command of a loaded schema that a message carries can be sent. -/
theorem sound {text : String} (hload : Schema.load text = .ok h.schema) (u : Understood h m) :
    u.command.Sound := by
  obtain ⟨hglobal, hclusters⟩ := Schema.commandsSound_of_load hload
  have hcluster := (h.schema.clusters.faithful.withId?_some _ _).mp u.clusterKnown
  rcases commandOf_eq_ok u.commandKnown with ⟨-, hfound⟩ | ⟨-, hfound⟩
  · have hcommand := (h.schema.globalCommands.faithful.withId?_some _ _).mp hfound
    exact hglobal _ hcommand.1
  · have hcommand := (u.cluster.commandsIn.faithful.withId?_some _ _).mp hfound
    exact (hclusters _ hcluster.1).1 _ hcommand.1

/-- The payload of a message has come in property by property. -/
theorem exists_payload (u : Understood h m) (hsound : u.command.Sound) :
    ∃ object : ReceivedObject (some u.cluster) u.command.payload,
      object.bytes = u.frame.payload ∧ object.value = u.payload := by
  have hreads := u.reads
  unfold Command.decodePayload at hreads
  rcases hread : (object u.command.payload).decode (some u.cluster) u.frame.payload with
    e | ⟨v, rest⟩
  · rw [hread] at hreads
    cases hreads
  · simp only [hread, bind, Except.bind] at hreads
    split at hreads
    · rename_i hrest
      cases hreads
      rw [List.isEmpty_iff.mp hrest] at hread
      exact exists_object (Nat.le_refl _) hsound hread
    · cases hreads

end Understood

/-! ## The records of a report -/

/-- The records of a report as they came in, up to the end of the message, and the list that they
are read as. -/
structure Report {h : Handler} {m : IncomingMessage} (u : Understood h m) where
  shape : ReportShape
  record : Properties
  shaped : Shaped u.command.payload shape record
  distinct : (record.map Prod.fst).Nodup
  records : List (ReceivedObject (some u.cluster) record)
  front : Bytes
  payload_eq : u.frame.payload = front ++ (records.map ReceivedObject.bytes).flatten
  list_eq : u.payload.get? shape.list = some (.list (records.map ReceivedObject.value))

/-- A record says of an attribute which value it has. -/
structure Report.Says {h : Handler} {m : IncomingMessage} {u : Understood h m} (report : Report u)
    (r : ReceivedObject (some u.cluster) report.record)
    (attr value : ReceivedProperty (some u.cluster)) : Prop where
  attr_mem : attr ∈ r.parts
  attr_property : attr.property = (report.shape.attr, .scalar .attributeId)
  value_mem : value ∈ r.parts
  value_property : value.property = (report.shape.value, .variant)

/-- If each item is kept, nothing gets lost. -/
theorem forall₂_filterMap {α β γ : Type} {f : β → Option γ} {g : α → β} {P : α → γ → Prop}
    {xs : List α} (h : ∀ x ∈ xs, ∃ y, f (g x) = some y ∧ P x y) :
    List.Forall₂ P xs ((xs.map g).filterMap f) := by
  induction xs with
  | nil => exact .nil
  | cons x xs ih =>
    obtain ⟨y, hy, hP⟩ := h x List.mem_cons_self
    rw [List.map_cons, List.filterMap_cons_some hy]
    exact .cons hP (ih fun x hx => h x (List.mem_cons_of_mem _ hx))

namespace Report

variable {h : Handler} {m : IncomingMessage} {u : Understood h m} {address : UInt64}
  {ps : List Publication}

theorem exists_says (report : Report u) (r : ReceivedObject (some u.cluster) report.record) :
    ∃ attr value, report.Says r attr value ∧
      r.value.get? report.shape.attr = some attr.value ∧
      r.value.get? report.shape.value = some value.value := by
  obtain ⟨attr, hattr, hattrProperty, hattrField⟩ :=
    r.exists_part report.distinct report.shaped.attr.mem
  obtain ⟨value, hvalue, hvalueProperty, hvalueField⟩ :=
    r.exists_part report.distinct report.shaped.value.mem
  exact ⟨attr, value, ⟨hattr, hattrProperty, hvalue, hvalueProperty⟩, hattrField, hvalueField⟩

/-- Every record is found with its attribute and value. -/
theorem records?_eq (report : Report u) : ∃ pairs,
    Handler.records? report.shape u.payload = some pairs ∧
    List.Forall₂ (fun r pair => ∃ attr value, report.Says r attr value ∧
      pair = (attr.value, value.value)) report.records pairs := by
  unfold Handler.records?
  simp only [report.list_eq, bind, Option.bind, Value.toList?, pure]
  refine ⟨_, rfl, ?_⟩
  apply forall₂_filterMap
  intro r _
  obtain ⟨attr, value, hsays, hattr, hvalue⟩ := report.exists_says r
  refine ⟨(attr.value, value.value), ?_, attr, value, hsays, rfl⟩
  simp only [hattr, hvalue]

/-- A report has records up to its end. -/
theorem exists_report (u : Understood h m) (hsound : u.command.Sound) (hreport : u.IsReport) :
    ∃ report : Report u, reportShape? u.command.payload = some report.shape := by
  obtain ⟨received, hbytes, hvalue⟩ := u.exists_payload hsound
  obtain ⟨shape, hshape⟩ := reportShape?_of_listsRecords hsound hreport.lists
  obtain ⟨record, hshaped⟩ := shaped_of_reportShape? hshape
  obtain ⟨part, hpart, hproperty, hfield⟩ :=
    received.exists_part (names_of_check hsound).1 hshaped.list
  have htype : part.type = .repeated (.object record) := congrArg Prod.snd hproperty
  have hcheck : (repeated (object record)).check = .ok () := check_of_mem hsound hshaped.list
  have hreads := part.reads
  rw [htype] at hreads
  obtain ⟨records, hrecords, hlist⟩ := exists_objects hcheck hreads
  obtain ⟨front, hfront⟩ := received.exists_front hsound hpart (by rw [htype]; rfl)
  have hdistinct : (record.map Prod.fst).Nodup :=
    (names_of_check (hasRepeated_repeated_of_check hcheck).2).1
  refine ⟨⟨shape, record, hshaped, hdistinct, records, front, ?_, ?_⟩, hshape⟩
  · rw [← hbytes, hfront, hrecords]
  · rw [← hvalue, hfield, hlist]

end Report

/-! ## Messages for the bus -/

variable {h : Handler} {m : IncomingMessage} {address : UInt64} {ps : List Publication}

theorem Understood.records?_of_isReport (u : Understood h m) (hreport : u.IsReport) :
    u.records? = (reportShape? u.command.payload).bind (Handler.records? · u.payload) :=
  if_pos ⟨hreport.isGlobal, hreport.number⟩

theorem Understood.records?_of_not_isReport (u : Understood h m) (hother : ¬ u.IsReport) :
    u.records? = none := by
  unfold Understood.records?
  split
  · rename_i hcommand
    cases hshape : reportShape? u.command.payload with
    | none => rfl
    | some shape =>
      obtain ⟨record, hshaped⟩ := shaped_of_reportShape? hshape
      exact absurd ⟨hcommand.1, hcommand.2, hshaped.listsRecords⟩ hother
  · rfl

/-- What a message comes to is one message for each record of a report, or a message with all of
it. -/
theorem exists_published {text : String} (hload : Schema.load text = .ok h.schema)
    (hps : h.publications address m = .ok ps) :
    ∃ u : Understood h m,
      (u.IsReport → ∃ report : Report u, List.Forall₂ (fun r p => ∃ attr value,
        report.Says r attr value ∧ p = u.published address attr.value value.value)
        report.records ps) ∧
      (¬ u.IsReport → ps = [⟨u.topic address none, u.payload⟩]) := by
  obtain ⟨u, rfl⟩ := Understood.exists_understood hps
  refine ⟨u, ?_, ?_⟩
  · intro hreport
    obtain ⟨report, hshape⟩ := Report.exists_report u (u.sound hload) hreport
    obtain ⟨pairs, hpairs, hsays⟩ := report.records?_eq
    refine ⟨report, ?_⟩
    rw [u.records?_of_isReport hreport, hshape, Option.bind_some, hpairs]
    apply List.forall₂_map_right_iff.mpr
    refine hsays.imp ?_
    rintro r _ ⟨attr, value, hsays, rfl⟩
    exact ⟨attr, value, hsays, rfl⟩
  · intro hother
    rw [u.records?_of_not_isReport hother]

/-! ## Attributes -/

/-- The level for the attribute with a number: its name in the cluster, or its number in hex. The
number of all ones stands for no attribute. -/
def levelOfNumber (cluster : Cluster) (n : Nat) : String :=
  if n = LittleEndian.allOnes 2 then "null"
  else
    match cluster.attributes.withId? n with
    | some info => info.name
    | none => "0x" ++ String.ofList (Numeral.upperHex 4 n)

/-- An attribute in a record is the number that its two bytes hold, by the name in the cluster if
it has one. -/
theorem attribute_reads {cluster : Cluster} {part : ReceivedProperty (some cluster)}
    (htype : part.type = .scalar .attributeId) :
    ∃ n < LittleEndian.limit 2, part.bytes = LittleEndian.bytes 2 n ∧
      part.value =
        if n = LittleEndian.allOnes 2 then .null else attributeValue (some cluster) n := by
  have hreads := part.reads
  rw [htype] at hreads
  obtain ⟨n, rest, hn, hvalue⟩ := Reader.bind_eq_ok hreads
  obtain ⟨hlt, hbytes⟩ := Reader.number_eq_ok hn
  obtain ⟨hmeaning, rfl⟩ := Prod.mk.inj (Except.ok.inj hvalue)
  rw [List.append_nil] at hbytes
  exact ⟨n, hlt, hbytes, hmeaning.symm⟩

theorem attributeLevel_of_toNat? {v : Value} {n : Nat} (h : v.toNat? = some n) :
    attributeLevel v = "0x" ++ String.ofList (Numeral.upperHex 4 n) := by
  unfold attributeLevel
  split
  · cases h
  · rw [h]

theorem attributeLevel_reads {cluster : Cluster} {part : ReceivedProperty (some cluster)}
    (htype : part.type = .scalar .attributeId) :
    attributeLevel part.value = levelOfNumber cluster (LittleEndian.value part.bytes) := by
  obtain ⟨n, hlt, hbytes, hvalue⟩ := attribute_reads htype
  rw [hbytes, hvalue, LittleEndian.value_bytes, Nat.mod_eq_of_lt hlt]
  unfold levelOfNumber
  split
  · rfl
  · unfold attributeValue
    rw [Option.bind_some]
    cases hinfo : cluster.attributes.withId? n with
    | some info => rfl
    | none =>
      apply attributeLevel_of_toNat?
      exact Value.toNat?_ofNat (Nat.lt_trans hlt (by decide))

/-! ## The law -/

/-- With a schema that was loaded from a text, a report of attributes comes to one message for each
of its records, in turn, under the attribute that the record tells of and with the value that it
says, and every other message that is understood comes to one message with the whole payload. -/
theorem no_record_is_lost {text : String} {h : Handler} {address : UInt64} {m : IncomingMessage}
    {ps : List Publication} (hload : Schema.load text = .ok h.schema)
    (hps : h.publications address m = .ok ps) :
    ∃ u : Understood h m,
      (u.IsReport → ∃ report : Report u, List.Forall₂ (fun r p => ∃ attr value,
        report.Says r attr value ∧
        p.topic = u.topic address
          (some (levelOfNumber u.cluster (LittleEndian.value attr.bytes))) ∧
        p.payload = expand u.cluster attr.value value.value) report.records ps) ∧
      (¬ u.IsReport → ps = [⟨u.topic address none, u.payload⟩]) := by
  obtain ⟨u, hrecords, hwhole⟩ := exists_published hload hps
  refine ⟨u, ?_, hwhole⟩
  intro hreport
  obtain ⟨report, hpublished⟩ := hrecords hreport
  refine ⟨report, hpublished.imp ?_⟩
  rintro r p ⟨attr, value, hsays, rfl⟩
  refine ⟨attr, value, hsays, ?_, rfl⟩
  rw [← attributeLevel_reads (congrArg Prod.snd hsays.attr_property)]
  rfl

/-- A schema with the report of attributes, the basic cluster and a switch. -/
def reportSchema : String :=
  String.ofList <|
    Info.entry "global" "commands" (some <| Info.entry "0x0A" "Report attributes" <| some <|
      Info.entry "repeated:object" "reports" <| some <|
        Info.entry "attribId" "attribute" none ++ Info.entry "variant" "data" none) ++
    Info.entry "0" "Basic" (some <|
      Info.entry "attributes" "" <| some <| Info.entry "0xFF01" "XiaomiHeartbeat" none) ++
    Info.entry "6" "On/Off" (some <|
      Info.entry "attributes" "" <| some <| Info.entry "0x0000" "OnOff" none)

/-- A message of a device with some data for a cluster. -/
def messageFor (cluster : UInt16) (data : Bytes) : IncomingMessage :=
  ⟨0, cluster, 0x7a4f, 1, 1, false, 0x80, false, 0, 0, data⟩

/-- A switch reports that it is on, and an attribute without a name. -/
theorem two_records_come_to_two_messages :
    let m := messageFor 6 [0x18, 0x05, 0x0a, 0x00, 0x00, 0x10, 0x01, 0x01, 0x40, 0x20, 0x07]
    ∃ s ps, Schema.load reportSchema = .ok s ∧
      (fresh s "zhub" 1).publications 0x00158d000183f519 m = .ok ps ∧
      ps.map (·.topic) = ["zhub/00158D000183F519/1/in/On_Off/Report attributes/OnOff",
        "zhub/00158D000183F519/1/in/On_Off/Report attributes/0x4001"] ∧
      ∃ (u : Understood (fresh s "zhub" 1) m) (report : Report u), u.IsReport ∧
        report.records.length = 2 := by
  intro m
  have htopics : ((Schema.load reportSchema).toOption.bind fun s =>
      ((fresh s "zhub" 1).publications 0x00158d000183f519 m).toOption.map
        fun ps => ps.map (·.topic)) =
      some ["zhub/00158D000183F519/1/in/On_Off/Report attributes/OnOff",
        "zhub/00158D000183F519/1/in/On_Off/Report attributes/0x4001"] := by
    unfold Schema.load Info.parse reportSchema
    rw [String.toList_ofList]
    decide +kernel
  rcases hload : Schema.load reportSchema with e | s
  · rw [hload] at htopics
    cases htopics
  · rw [hload] at htopics
    rcases hps : (fresh s "zhub" 1).publications 0x00158d000183f519 m with e | ps
    · simp only [Except.toOption, Option.bind_some, hps] at htopics
      cases htopics
    · simp only [Except.toOption, Option.bind_some, hps, Option.map_some,
        Option.some.injEq] at htopics
      obtain ⟨u, hrecords, hwhole⟩ := no_record_is_lost hload hps
      have htwo : ps.length = 2 := by rw [← List.length_map (·.topic), htopics]; rfl
      -- a message that is no report comes to one message, and there are two
      have hreport : u.IsReport := by
        by_contra hother
        rw [hwhole hother] at htwo
        cases htwo
      obtain ⟨report, hall⟩ := hrecords hreport
      exact ⟨s, ps, rfl, hps, htopics, u, report, hreport, hall.length_eq.trans htwo⟩

end ZigbeeGateway.Handler
