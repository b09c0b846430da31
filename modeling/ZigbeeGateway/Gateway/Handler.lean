-- Between messages of devices and messages for the bus. A device's message becomes one
-- message for the bus, or one per attribute if it reports attributes; a command from the bus
-- becomes a message to a device.
import ZigbeeGateway.Heartbeat
import ZigbeeGateway.Json.Read
import ZigbeeGateway.Mqtt.Bus
import ZigbeeGateway.Mqtt.Topic
import ZigbeeGateway.Payload.Command
import ZigbeeGateway.Radio.Message
import ZigbeeGateway.Text.Blank
import ZigbeeGateway.Zcl.Frame
namespace ZigbeeGateway

open Radio (DataRequest IncomingMessage)

/-- A schema, the endpoint of the gateway, and what it remembers of each device by its short
address. -/
structure Handler where
  schema : Schema
  /-- The first level of topics. -/
  first : String
  endpoint : UInt8
  /-- What reads the JSON texts that come from the bus. -/
  readJson : List Char → Option Value
  /-- The data of the last message that was let in. -/
  lastData : Std.TreeMap UInt16 Bytes
  /-- The number of the next transaction. -/
  transactions : Std.TreeMap UInt16 UInt8

/-- One message for the bus. -/
structure Publication where
  topic : String
  payload : Value
deriving Repr

namespace Handler

/-- A handler that has seen nothing. -/
def fresh (schema : Schema) (first : String) (endpoint : UInt8) : Handler :=
  ⟨schema, first, endpoint, Json.readChars?, ∅, ∅⟩

/-- Lets a message in if it is for the endpoint and no repetition of the one before it from the
same device. -/
def accept (h : Handler) (m : IncomingMessage) : Bool × Handler :=
  if m.endpoint ≠ h.endpoint ∨ h.lastData[m.source]? = some m.data then (false, h)
  else (true, { h with lastData := h.lastData.insert m.source m.data })

/-! ## Reports -/

/-- The global command that reports attributes. -/
def reportAttributes : UInt8 := 0x0a

/-- The names of the properties that make up a report: the list of records, and in a record the
attribute and its value. -/
structure ReportShape where
  list : String
  attr : String
  value : String
deriving DecidableEq, Repr

/-- The name of the first property whose type is as wanted. -/
def propertyName? (wanted : PayloadType → Bool) (properties : Properties) : Option String :=
  (properties.find? fun (_, type) => wanted type).map (·.1)

def isAttributeId : PayloadType → Bool
  | .scalar .attributeId => true
  | _ => false

def isVariant : PayloadType → Bool
  | .variant => true
  | _ => false

/-- The first property that repeats an object, and the properties of that object. -/
def recordList? : Properties → Option (String × Properties)
  | [] => none
  | (name, .repeated (.object record)) :: _ => some (name, record)
  | _ :: rest => recordList? rest

/-- The shape of the reports in a payload, if it has one. -/
def reportShape? (properties : Properties) : Option ReportShape := do
  let (list, record) ← recordList? properties
  let attr ← propertyName? isAttributeId record
  let value ← propertyName? isVariant record
  return ⟨list, attr, value⟩

/-- The attributes and values in a report, record by record. -/
def records? (shape : ReportShape) (report : Value) : Option (List (Value × Value)) := do
  let items ← (← report.get? shape.list).toList?
  return items.filterMap fun item => do return (← item.get? shape.attr, ← item.get? shape.value)

/-- An attribute as the level of a topic: its name, or its number in hex. -/
def attributeLevel (attr : Value) : String :=
  match attr with
  | .text name => name
  | v =>
    match v.toNat? with
    | some id => "0x" ++ String.ofList (Numeral.upperHex 4 id)
    | none => Json.compact v

/-- The number of an attribute that a report names. -/
def attributeNumber? (cluster : Cluster) (attr : Value) : Option Nat :=
  match attr with
  | .text name => (cluster.attributes.withName? name).map (·.id.toNat)
  | v => v.toNat?

/-- The type that stands beside a heartbeat. -/
def heartbeatType : String := "xiaomi_ff01"

/-- The value of an attribute for the bus. A heartbeat that can be read is given by its items. -/
def expand (cluster : Cluster) (attr value : Value) : Value :=
  if cluster.id = Heartbeat.basicCluster ∧
      attributeNumber? cluster attr = some Heartbeat.attributeId.toNat then
    match (value.get? "value").bind Heartbeat.bytes? with
    | none => value
    | some bs =>
      match Heartbeat.decode bs with
      | .ok items => .typed heartbeatType items
      | .error _ => value
  else value

/-- The command that a frame for a cluster carries. -/
def commandOf (schema : Schema) (cluster : Cluster) (header : Zcl.Header) :
    Except GatewayError Command :=
  let found := match header.frameType with
    | .global => schema.globalCommands.withId? header.command.toNat
    | .clusterSpecific => cluster.commandsIn.withId? header.command.toNat
  match found with
  | some command => .ok command
  | none => .error (.unknownCommand cluster.id header.command)

/-- What a message of the device with an address has for the bus. -/
def publications (h : Handler) (address : UInt64) (m : IncomingMessage) :
    Except GatewayError (List Publication) := do
  let frame ← (Zcl.Frame.decode m.data).mapError .read
  let some cluster := h.schema.clusters.withId? m.cluster.toNat | throw (.unknownCluster m.cluster)
  let command ← commandOf h.schema cluster frame.header
  let payload ← (command.decodePayload (some cluster) frame.payload).mapError .read
  let subject : Topic.Subject := ⟨address, m.sourceEndpoint, cluster.name, command.name⟩
  let isReport := frame.header.frameType = .global ∧ frame.header.command = reportAttributes
  let records := if isReport then (reportShape? command.payload).bind (records? · payload) else none
  match records with
  | none => return [⟨Topic.report h.first subject none, payload⟩]
  | some records =>
    return records.map fun (attr, value) =>
      ⟨Topic.report h.first subject (some (attributeLevel attr)), expand cluster attr value⟩

/-- Gives what a message has for the bus to a bus. Tells how many messages that were. -/
def forward {σ : Type} (h : Handler) (publish : σ → Mqtt.Message → Except GatewayError σ)
    (bus : σ) (qos : Mqtt.QoS) (address : UInt64) (m : IncomingMessage) :
    Except GatewayError Nat × σ :=
  match h.publications address m with
  | .error e => (.error e, bus)
  | .ok publications =>
    let messages := publications.map fun p => ⟨p.topic, p.payload, qos, false⟩
    let (result, bus) := Mqtt.publishAll publish bus messages
    (result.map fun _ => publications.length, bus)

/-! ## Commands -/

/-- The number for the next transaction with a device. Numbers of one byte start again at zero. -/
def nextTransaction (h : Handler) (short : UInt16) : UInt8 × Handler :=
  let n := (h.transactions[short]?).getD 0
  (n, { h with transactions := h.transactions.insert short (n + 1) })

/-- The number that a level of a topic stands for. -/
def levelNumber? (level : String) : Option Nat := Numeral.hexOrDecimal? UInt16.size level.toList

/-- The cluster that a level names: by its name, by its number, or by its name as a level. -/
def cluster? (schema : Schema) (level : String) : Option Cluster :=
  (schema.clusters.withName? level).or <|
    ((levelNumber? level).bind schema.clusters.withId?).or <|
      schema.clusters.entries.find? (Topic.level ·.name == level)

/-- The command of a table whose name is a level. -/
def commandWithLevel? (table : Table Command) (level : String) : Option Command :=
  table.entries.find? (Topic.level ·.name == level)

/-- The command to send that a level names, by its name or by its name as a level, and whether it
is a global one. Global commands go first. -/
def command? (schema : Schema) (cluster : Cluster) (level : String) : Option (Bool × Command) :=
  (schema.commandOut? cluster.id level).or <|
    ((commandWithLevel? schema.globalCommands level).map (true, ·)).or <|
      (commandWithLevel? cluster.commandsOut level).map (false, ·)

/-- The record in the payload of a command from the bus. Nothing but blanks stands for the record
without fields. -/
def argument (readJson : List Char → Option Value) (payload : Bytes) : Except GatewayError Value :=
  if payload.all isBlankByte then .ok (.record [])
  else
    match (Utf8.decode? payload).bind readJson with
    | some v => .ok v
    | none => .error .invalidPayload

/-- The message that carries a command to the device with a short address. -/
def commandRequest (h : Handler) (subject : Topic.Subject) (payload : Bytes) (short : UInt16) :
    Except GatewayError (DataRequest × Handler) := do
  let some cluster := cluster? h.schema subject.cluster
    | throw (.unknownClusterName subject.cluster)
  let some (isGlobal, command) := command? h.schema cluster subject.command
    | throw (.unknownCommandName cluster.name subject.command)
  let value ← argument h.readJson payload
  let encoded ← (command.encodePayload (some cluster) value).mapError .write
  let (transaction, h) := h.nextTransaction short
  let frameType := if isGlobal then .global else .clusterSpecific
  let frame : Zcl.Frame := ⟨.plain frameType transaction command.id, encoded⟩
  return ({
    destination := short
    endpoint := subject.endpoint
    sourceEndpoint := h.endpoint
    cluster := cluster.id
    transaction
    options := 0
    radius := DataRequest.defaultRadius
    data := frame.encode }, h)

end Handler

end ZigbeeGateway
