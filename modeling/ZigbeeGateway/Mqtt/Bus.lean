-- The message bus: messages for it, and the client of a broker as far as it goes without a
-- connection.
import ZigbeeGateway.Gateway.Error
import ZigbeeGateway.Value
namespace ZigbeeGateway.Mqtt

/-- How hard a broker tries to deliver a message. -/
inductive QoS where
  | atMostOnce
  | atLeastOnce
  | exactlyOnce
deriving DecidableEq, Repr

/-- The delivery of a level; levels above 2 count as 2. -/
def QoS.ofLevel (level : UInt8) : QoS :=
  if level = 0 then atMostOnce else if level = 1 then atLeastOnce else exactlyOnce

structure Message where
  topic : String
  payload : Value
  qos : QoS
  retain : Bool
deriving Repr

/-- A client of the broker at a URL. -/
structure Bus where
  url : String
  running : Bool
  /-- The messages that wait for a connection, the newest in front. -/
  queued : List Message
deriving Repr

namespace Bus

/-- A client that has not been started. -/
def idle (url : String) : Bus := ⟨url, false, []⟩

/-- Starts a client that does not run, if its URL is one. -/
def start (b : Bus) : Except GatewayError Bus :=
  if b.running then .error .alreadyRunning
  else
    match Url.parse b.url with
    | .ok _ => .ok { b with running := true, queued := [] }
    | .error fault => .error (.invalidUrl b.url fault)

def stop (b : Bus) : Bus := { b with running := false, queued := [] }

/-- Whether a message may have a topic: wildcards are for filters only. -/
def isTopic (topic : String) : Bool :=
  !(topic.toList.contains '+' || topic.toList.contains '#')

/-- Takes a message for sending. -/
def publish (b : Bus) (m : Message) : Except GatewayError Bus :=
  if !b.running then .error (.publish "not connected")
  else if isTopic m.topic then .ok { b with queued := m :: b.queued }
  else .error (.publish "Failed to send mqtt requests to eventloop")

end Bus

/-- A bus that keeps its messages for looking at. It can be made to fail once it has a number of
them. -/
structure Recorder where
  failAt : Option Nat
  /-- The newest message in front. -/
  messages : List Message

/-- Takes a message for keeping. -/
def Recorder.publish (r : Recorder) (m : Message) : Except GatewayError Recorder :=
  if r.failAt.any (· ≤ r.messages.length) then .error (.publish "mock")
  else .ok { r with messages := m :: r.messages }

/-- Gives messages to a bus one after the other. The first that it refuses ends it. -/
def publishAll {σ : Type} (publish : σ → Message → Except GatewayError σ) (bus : σ) :
    List Message → Except GatewayError Unit × σ
  | [] => (.ok (), bus)
  | m :: rest =>
    match publish bus m with
    | .ok bus => publishAll publish bus rest
    | .error e => (.error e, bus)

end ZigbeeGateway.Mqtt
