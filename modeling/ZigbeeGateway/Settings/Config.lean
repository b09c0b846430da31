-- The settings of the gateway: how to reach the radio and the broker, and what to know about
-- the network.
import ZigbeeGateway.Mqtt.Bus
import ZigbeeGateway.Mqtt.Topic
import ZigbeeGateway.Settings.Entry
namespace ZigbeeGateway.Settings

/-- How to reach the broker. -/
structure Broker where
  url : String
  /-- The name of the client, if it is not left to the URL or to chance. -/
  clientId : Option String
  /-- The level of delivery. -/
  qos : UInt8
  keepAlive : UInt16
  /-- The first level of topics. -/
  first : String
deriving DecidableEq, Repr

/-- How to reach the radio. -/
structure Serial where
  port : String
  baudRate : UInt32
  flowControl : Bool
deriving DecidableEq, Repr

/-- What to know about the network. -/
structure Network where
  /-- The file of the schema. -/
  schema : String
  /-- The endpoint of the gateway. -/
  endpoint : UInt8
  /-- How long to wait for answers of the radio, in milliseconds. -/
  timeout : UInt64
deriving DecidableEq, Repr

structure Config where
  serial : Serial
  broker : Broker
  network : Network
deriving DecidableEq, Repr

/-! ## Sections -/

namespace Broker

/-- The names of the settings, in their order. -/
def names : List String := ["url", "client_id", "qos", "keep_alive_secs", "topic_prefix"]

/-- The settings that are left out. -/
def default : Broker := ⟨"mqtt://localhost:1883", none, 0, 60, Topic.defaultFirst⟩

/-- The settings of a section. -/
def ofSection? (s : Section) : Option Broker := do
  let url ← s.text? "url" default.url
  let clientId ← s.optionalText? "client_id"
  let qos ← s.number? "qos" UInt8.size default.qos.toNat
  let keepAlive ← s.number? "keep_alive_secs" UInt16.size default.keepAlive.toNat
  let first ← s.text? "topic_prefix" default.first
  return ⟨url, clientId, UInt8.ofNat qos, UInt16.ofNat keepAlive, first⟩

/-- How hard the broker is to try to deliver. -/
def delivery (b : Broker) : Mqtt.QoS := .ofLevel b.qos

/-- A client of the broker that has not been started. -/
def bus (b : Broker) : Mqtt.Bus := .idle b.url

end Broker

namespace Serial

/-- The names of the settings, in their order. -/
def names : List String := ["port", "baud_rate", "rtscts"]

/-- The settings that are left out. -/
def default : Serial := ⟨"/dev/ttyACM0", 115200, false⟩

/-- The settings of a section. -/
def ofSection? (s : Section) : Option Serial := do
  let port ← s.text? "port" default.port
  let baudRate ← s.number? "baud_rate" UInt32.size default.baudRate.toNat
  let flowControl ← s.flag? "rtscts" default.flowControl
  return ⟨port, UInt32.ofNat baudRate, flowControl⟩

end Serial

namespace Network

/-- The names of the settings, in their order. -/
def names : List String := ["schema", "endpoint", "request_timeout_ms"]

/-- The settings that are left out. -/
def default : Network := ⟨"config/clusters.info", 1, 5000⟩

/-- The settings of a section. -/
def ofSection? (s : Section) : Option Network := do
  let schema ← s.text? "schema" default.schema
  let endpoint ← s.number? "endpoint" UInt8.size default.endpoint.toNat
  let timeout ← s.number? "request_timeout_ms" UInt64.size default.timeout.toNat
  return ⟨schema, UInt8.ofNat endpoint, UInt64.ofNat timeout⟩

end Network

/-! ## Rules -/

/-- A setting that cannot be worked with. -/
inductive Fault where
  | endpoint (n : UInt8)
  | baudRate
  | qos (n : UInt8)
  | first (s : String)
deriving DecidableEq, Repr

/-- The wording of a fault. -/
def Fault.message : Fault → String
  | endpoint n => "zigbee.endpoint must be between 1 and 240, got " ++ inDecimal n.toNat
  | baudRate => "serial.baud_rate must be positive"
  | qos n => "mqtt.qos must be 0, 1 or 2, got " ++ inDecimal n.toNat
  | first s => "mqtt.topic_prefix " ++ inQuotes s ++ " is not a valid topic prefix"

namespace Config

/-- The settings that are left out. -/
def default : Config := ⟨.default, .default, .default⟩

/-- Whether a text may be the first level of topics. It may have further levels, but no
wildcards. -/
def isFirst (s : String) : Bool := !s.isEmpty && Mqtt.Bus.isTopic s

/-- The first fault of some settings. -/
def fault? (c : Config) : Option Fault :=
  if c.network.endpoint < 1 ∨ 240 < c.network.endpoint then some (.endpoint c.network.endpoint)
  else if c.serial.baudRate = 0 then some .baudRate
  else if 2 < c.broker.qos then some (.qos c.broker.qos)
  else if !isFirst c.broker.first then some (.first c.broker.first)
  else none

end Config

end ZigbeeGateway.Settings
