-- Messages of devices as the radio hands them over, and messages to devices as the radio
-- takes them.
import ZigbeeGateway.Radio.Frame
namespace ZigbeeGateway.Radio

/-- A message that a device sent to an endpoint of the gateway. -/
structure IncomingMessage where
  group : UInt16
  cluster : UInt16
  source : UInt16
  sourceEndpoint : UInt8
  endpoint : UInt8
  broadcast : Bool
  linkQuality : UInt8
  secured : Bool
  timestamp : UInt32
  transaction : UInt8
  data : Bytes
deriving DecidableEq, Repr

/-- A message to an endpoint of a device. -/
structure DataRequest where
  destination : UInt16
  endpoint : UInt8
  sourceEndpoint : UInt8
  cluster : UInt16
  transaction : UInt8
  options : UInt8
  /-- How many hops the message may take. -/
  radius : UInt8
  data : Bytes
deriving DecidableEq, Repr

/-- The two bytes of a number, lowest first. -/
def bytes16 (n : UInt16) : Bytes := LittleEndian.bytes 2 n.toNat

/-- The number in two bytes. -/
def number16 (low high : UInt8) : UInt16 := UInt16.ofNat (LittleEndian.value [low, high])

namespace IncomingMessage

/-- How the radio names a message in its own documents. -/
def title : String := "AF_INCOMING_MSG"

/-- How many bytes stand in front of the data. -/
def headerSize : Nat := 17

/-- Some radios add up to three bytes after the data. -/
def maxTrailing : Nat := 3

/-- The message that a payload is. The byte before the data says how long the data is. -/
def decode (payload : Bytes) : Except LinkError IncomingMessage :=
  match payload with
  | g0 :: g1 :: c0 :: c1 :: s0 :: s1 :: sourceEndpoint :: endpoint :: broadcast :: linkQuality ::
      secured :: t0 :: t1 :: t2 :: t3 :: transaction :: length :: rest =>
    let count := length.toNat
    if rest.length < count then
      .error (.tooShort title (headerSize + count) payload.length)
    else if rest.length - count > maxTrailing then
      .error (.trailingBytes title (rest.length - count))
    else
      .ok {
        group := number16 g0 g1
        cluster := number16 c0 c1
        source := number16 s0 s1
        sourceEndpoint, endpoint
        broadcast := broadcast ≠ 0
        linkQuality
        secured := secured ≠ 0
        timestamp := UInt32.ofNat (LittleEndian.value [t0, t1, t2, t3])
        transaction
        data := rest.take count }
  | _ => .error (.tooShort title headerSize payload.length)

end IncomingMessage

namespace DataRequest

/-- How far messages may travel by default. -/
def defaultRadius : UInt8 := 30

/-- The payload for a message, whose data may have at most 255 bytes. -/
def encode (r : DataRequest) : Except LinkError Bytes :=
  if r.data.length ≤ 255 then
    .ok (bytes16 r.destination ++ [r.endpoint, r.sourceEndpoint] ++ bytes16 r.cluster ++
      [r.transaction, r.options, r.radius, UInt8.ofNat r.data.length] ++ r.data)
  else .error (.payloadTooLarge r.data.length)

end DataRequest

/-- An endpoint of the gateway, as it is made known to the radio. -/
structure Registration where
  endpoint : UInt8
  profile : UInt16
  device : UInt16
  version : UInt8
  latency : UInt8
  clustersIn : List UInt16
  clustersOut : List UInt16
deriving DecidableEq, Repr

namespace Registration

/-- The radio takes at most this many clusters per direction. -/
def maxClusters : Nat := 16

/-- Refuses too many clusters. -/
def checkCount (clusters : List UInt16) : Except LinkError Unit :=
  if clusters.length ≤ maxClusters then .ok ()
  else .error (.tooManyClusters maxClusters clusters.length)

/-- Clusters behind their number. -/
def clusterBytes (clusters : List UInt16) : Bytes :=
  UInt8.ofNat clusters.length :: clusters.flatMap bytes16

/-- The payload that registers an endpoint. -/
def encode (r : Registration) : Except LinkError Bytes := do
  checkCount r.clustersIn
  checkCount r.clustersOut
  return r.endpoint :: bytes16 r.profile ++ bytes16 r.device ++ [r.version, r.latency] ++
    clusterBytes r.clustersIn ++ clusterBytes r.clustersOut

end Registration

/-! ## Answers of the radio -/

/-- Whether an answer starts with the status of success. -/
def checkStatus (what : String) : Bytes → Except LinkError Unit
  | [] => .error (.tooShort what 1 0)
  | status :: _ => if status = 0 then .ok () else .error (.failedStatus what status)

/-- The device address at the front of an answer. -/
def addressOf (payload : Bytes) : Except LinkError UInt64 :=
  if payload.length < 8 then .error (.tooShort "ADDRMGR_NWK_ADDR_LOOKUP" 8 payload.length)
  else .ok (UInt64.ofNat (LittleEndian.value (payload.take 8)))

end ZigbeeGateway.Radio
