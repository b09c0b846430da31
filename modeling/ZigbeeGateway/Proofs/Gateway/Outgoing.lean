-- Commands that go out are understood by the side that reads such messages: the frame that is
-- sent says which command of which cluster it carries, and its payload is read back whole.
import ZigbeeGateway.Gateway.Handler
import ZigbeeGateway.Proofs.Payload.ReadingBack
import ZigbeeGateway.Proofs.Schema.Consistency
import ZigbeeGateway.Proofs.Zcl.Frames
namespace ZigbeeGateway

/-! ## Payloads of commands -/

namespace Command

variable {command : Command} {cluster : Option Cluster} {v : Value} {bs : Bytes}

theorem encodePayload_eq_ok :
    command.encodePayload cluster v = .ok bs ↔
      (PayloadType.object command.payload).encode cluster v = .ok bs := by
  unfold encodePayload
  cases (PayloadType.object command.payload).encode cluster v <;> simp [Except.mapError]

/-- The payload of a command that can be sent is read back whole, as a record that is written as the
same payload again. -/
theorem Sound.readsBack (hsound : command.Sound) (h : command.encodePayload cluster v = .ok bs) :
    ∃ v', command.decodePayload cluster bs = .ok v' ∧
      command.encodePayload cluster v' = .ok bs := by
  rw [encodePayload_eq_ok, PayloadType.encode_eq_ok] at h
  obtain ⟨v', hv'⟩ := PayloadType.readsBack_write (Or.inr rfl) maxNesting _ hsound v bs h
  have hdecode : (PayloadType.object command.payload).decode cluster (bs ++ []) = .ok (v', []) :=
    hv'.reads [] fun _ => rfl
  rw [List.append_nil] at hdecode
  refine ⟨v', ?_, ?_⟩
  · unfold decodePayload
    rw [hdecode]
    rfl
  · rw [encodePayload_eq_ok, PayloadType.encode_eq_ok]
    exact hv'.writes

end Command

namespace Handler

open Radio (DataRequest)

/-! ## What a level stands for -/

/-- A cluster that a level stands for is one of the schema. -/
theorem cluster?_mem {s : Schema} {level : String} {c : Cluster} (h : cluster? s level = some c) :
    c ∈ s.clusters.entries := by
  unfold cluster? at h
  rw [Option.or_eq_some_iff, Option.or_eq_some_iff] at h
  rcases h with hname | ⟨-, hid | ⟨-, hlevel⟩⟩
  · exact ((s.clusters.faithful.withName?_some level c).mp hname).1
  · obtain ⟨id, -, hid⟩ := Option.bind_eq_some_iff.mp hid
    exact ((s.clusters.faithful.withId?_some id c).mp hid).1
  · exact List.mem_of_find?_eq_some hlevel

/-- Where a command to send stands: with the global ones, or with those that go out to a cluster. -/
def Offers (s : Schema) (cluster : Cluster) (isGlobal : Bool) (command : Command) : Prop :=
  if isGlobal then command ∈ s.globalCommands.entries else command ∈ cluster.commandsOut.entries

theorem commandWithLevel?_eq_some {table : Table Command} {level : String} {command : Command}
    (h : commandWithLevel? table level = some command) :
    command ∈ table.entries ∧ Topic.level command.name = level :=
  ⟨List.mem_of_find?_eq_some h, by simpa using List.find?_some h⟩

/-- A command that a level stands for is global or one of the very cluster that it is sent to, and
the level is its name, as it is or made into a level. -/
theorem command?_eq_some {s : Schema} {cluster : Cluster} {level : String} {isGlobal : Bool}
    {command : Command} (hcluster : cluster ∈ s.clusters.entries)
    (h : command? s cluster level = some (isGlobal, command)) :
    Offers s cluster isGlobal command ∧
      (command.name = level ∨ Topic.level command.name = level) := by
  unfold command? at h
  rw [Option.or_eq_some_iff, Option.or_eq_some_iff] at h
  rcases h with hname | ⟨-, hlevel | ⟨-, hlevel⟩⟩
  · cases isGlobal with
    | true =>
      rw [s.commandOut?_eq_global] at hname
      have hfound := (s.globalCommands.faithful.withName?_some level command).mp hname
      exact ⟨hfound.1, .inl hfound.2⟩
    | false =>
      obtain ⟨-, named, hid, hname⟩ := (s.commandOut?_eq_cluster _ _ _).mp hname
      have hself := (s.clusters.faithful.withId?_some cluster.id.toNat cluster).mpr ⟨hcluster, rfl⟩
      obtain rfl : cluster = named := by
        rw [hself] at hid
        exact Option.some.inj hid
      have hfound := (cluster.commandsOut.faithful.withName?_some level command).mp hname
      exact ⟨hfound.1, .inl hfound.2⟩
  · obtain ⟨c, hfind, heq⟩ := Option.map_eq_some_iff.mp hlevel
    cases heq
    obtain ⟨hmem, hname⟩ := commandWithLevel?_eq_some hfind
    exact ⟨hmem, .inr hname⟩
  · obtain ⟨c, hfind, heq⟩ := Option.map_eq_some_iff.mp hlevel
    cases heq
    obtain ⟨hmem, hname⟩ := commandWithLevel?_eq_some hfind
    exact ⟨hmem, .inr hname⟩

theorem Offers.sound {s : Schema} {cluster : Cluster} {isGlobal : Bool} {command : Command}
    (h : Offers s cluster isGlobal command) (hs : s.CommandsSound)
    (hcluster : cluster ∈ s.clusters.entries) : command.Sound := by
  unfold Offers at h
  cases isGlobal with
  | true => exact hs.1 command h
  | false => exact (hs.2 cluster hcluster).2 command h

/-! ## Making a message -/

/-- What it takes for a command to become a message, and which message that is. -/
theorem commandRequest_eq_ok {h h' : Handler} {subject : Topic.Subject} {payload : Bytes}
    {short : UInt16} {r : DataRequest} (hr : h.commandRequest subject payload short = .ok (r, h')) :
    ∃ cluster isGlobal command value encoded,
      cluster? h.schema subject.cluster = some cluster ∧
      command? h.schema cluster subject.command = some (isGlobal, command) ∧
      argument h.readJson payload = .ok value ∧
      command.encodePayload (some cluster) value = .ok encoded ∧
      h' = (h.nextTransaction short).2 ∧
      r = {
        destination := short
        endpoint := subject.endpoint
        sourceEndpoint := h.endpoint
        cluster := cluster.id
        transaction := (h.nextTransaction short).1
        options := 0
        radius := DataRequest.defaultRadius
        data := Zcl.Frame.encode
          ⟨.plain (if isGlobal then .global else .clusterSpecific) (h.nextTransaction short).1
            command.id, encoded⟩ } := by
  unfold commandRequest at hr
  cases hcluster : cluster? h.schema subject.cluster with
  | none => simp [hcluster, throw, throwThe, MonadExceptOf.throw] at hr
  | some cluster =>
    cases hcommand : command? h.schema cluster subject.command with
    | none => simp [hcluster, hcommand, throw, throwThe, MonadExceptOf.throw] at hr
    | some found =>
      obtain ⟨isGlobal, command⟩ := found
      cases hvalue : argument h.readJson payload with
      | error e => simp [hcluster, hcommand, hvalue, bind, Except.bind] at hr
      | ok value =>
        cases hencoded : command.encodePayload (some cluster) value with
        | error e =>
          simp [hcluster, hcommand, hvalue, hencoded, bind, Except.bind, Except.mapError] at hr
        | ok encoded =>
          simp [hcluster, hcommand, hvalue, hencoded, bind, Except.bind, Except.mapError, pure,
            Except.pure] at hr
          obtain ⟨rfl, rfl⟩ := hr
          exact ⟨cluster, isGlobal, command, value, encoded, rfl, hcommand, rfl, hencoded, rfl, rfl⟩

/-! ## The law -/

/-- A message that is understood as a command where it arrives: its frame is read back, sent by a
client and with no code of a manufacturer, and tells the command, and the payload is read back whole
as a record that has this very payload. -/
structure UnderstoodAs (r : DataRequest) (cluster : Cluster) (isGlobal : Bool) (command : Command)
    (frame : Zcl.Frame) : Prop where
  clusterId : r.cluster = cluster.id
  decodes : Zcl.Frame.decode r.data = .ok frame
  direction : frame.header.direction = .clientToServer
  manufacturer : frame.header.manufacturer = none
  frameType : frame.header.frameType = .global ↔ isGlobal = true
  transaction : frame.header.transaction = r.transaction
  commandId : frame.header.command = command.id
  payload : ∃ v, command.decodePayload (some cluster) frame.payload = .ok v ∧
    command.encodePayload (some cluster) v = .ok frame.payload

/-- With a schema that was loaded from a text, whatever command of the bus becomes a message is
understood as the command that the topic names, in the cluster that it names, and the payload is the
one for the record from the bus. -/
theorem whatever_goes_out_is_understood {text : String} {h h' : Handler} {subject : Topic.Subject}
    {payload : Bytes} {short : UInt16} {r : DataRequest} (hload : Schema.load text = .ok h.schema)
    (hr : h.commandRequest subject payload short = .ok (r, h')) :
    ∃ cluster isGlobal command value frame,
      cluster? h.schema subject.cluster = some cluster ∧
      command? h.schema cluster subject.command = some (isGlobal, command) ∧
      Offers h.schema cluster isGlobal command ∧
      argument h.readJson payload = .ok value ∧
      command.encodePayload (some cluster) value = .ok frame.payload ∧
      UnderstoodAs r cluster isGlobal command frame := by
  obtain ⟨cluster, isGlobal, command, value, encoded, hcluster, hcommand, hvalue, hencoded, -,
    rfl⟩ := commandRequest_eq_ok hr
  have hmem := cluster?_mem hcluster
  have hoffers := (command?_eq_some hmem hcommand).1
  have hsound := hoffers.sound (Schema.commandsSound_of_load hload) hmem
  refine ⟨cluster, isGlobal, command, value,
    ⟨.plain (if isGlobal then .global else .clusterSpecific) (h.nextTransaction short).1 command.id,
      encoded⟩, hcluster, hcommand, hoffers, hvalue, hencoded, ?_⟩
  exact {
    clusterId := rfl
    decodes := Zcl.Frame.decode_encode_plain _ _ _ _
    direction := rfl
    manufacturer := rfl
    frameType := by cases isGlobal <;> simp [Zcl.Header.plain]
    transaction := rfl
    commandId := rfl
    payload := hsound.readsBack hencoded }

/-- A schema with a switch, and with a global command whose payload is a list to the end. -/
def switchSchema : String :=
  String.ofList <|
    Info.entry "global" "commands" (some <| Info.entry "0x00" "Read Attributes" <| some <|
      Info.entry "repeated:attribId" "attributes" none) ++
    Info.entry "6" "On/Off" (some <|
      Info.entry "attributes" "" (some <| Info.entry "0x4001" "OnTime" none) ++
      Info.entry "commands" "out" (some <| Info.entry "0x42" "On With Timed Off" <| some <|
        Info.entry "uint8" "control" none ++ Info.entry "uint16" "time" none))

/-- A list of two attributes as it comes from the bus, one of them named and one numbered. -/
def twoAttributes : Bytes :=
  Utf8.encode "\x7b\"attributes\": [\"OnTime\", 5]\x7d".toList

/-- The topic names the cluster by its level, and the payload is a list to the end. -/
theorem reading_two_attributes_is_understood :
    let subject : Topic.Subject := ⟨0x00158d0001a2b3c4, 1, "On_Off", "Read Attributes"⟩
    ∃ s r h', Schema.load switchSchema = .ok s ∧
      (fresh s "zhub" 1).commandRequest subject twoAttributes 0x1234 = .ok (r, h') ∧
      r.data = [0x00, 0x00, 0x00, 0x01, 0x40, 0x05, 0x00] ∧
      ∃ cluster isGlobal command value frame,
        argument Json.readChars? twoAttributes = .ok value ∧
        command.encodePayload (some cluster) value = .ok frame.payload ∧
        UnderstoodAs r cluster isGlobal command frame := by
  intro subject
  have hdata : ((Schema.load switchSchema).toOption.bind fun s => ((fresh s "zhub" 1).commandRequest
      subject twoAttributes 0x1234).toOption.map (·.1.data)) =
      some [0x00, 0x00, 0x00, 0x01, 0x40, 0x05, 0x00] := by
    unfold Schema.load Info.parse switchSchema
    rw [String.toList_ofList]
    decide +kernel
  rcases hload : Schema.load switchSchema with e | s
  · rw [hload] at hdata
    cases hdata
  · rw [hload] at hdata
    rcases hr : (fresh s "zhub" 1).commandRequest subject twoAttributes 0x1234 with e | ⟨r, h'⟩
    · simp only [Except.toOption, Option.bind_some, hr] at hdata
      cases hdata
    · simp only [Except.toOption, Option.bind_some, hr] at hdata
      obtain ⟨cluster, isGlobal, command, value, frame, -, -, -, hvalue, hencoded, hunderstood⟩ :=
        whatever_goes_out_is_understood hload hr
      exact ⟨s, r, h', rfl, hr, Option.some.inj hdata, cluster, isGlobal, command, value, frame,
        hvalue, hencoded, hunderstood⟩

end Handler

end ZigbeeGateway
