-- Bringing up the radio as a script: a ping, the start of the network and the registration of the
-- endpoint, each of which is only tried after the reply to the one before it that it asks for.
import ZigbeeGateway.Gateway.StartUp
import ZigbeeGateway.Proofs.Radio.Conversations
namespace ZigbeeGateway.StartUp

open Radio Radio.Conversation

variable (schema : Schema) (endpoint : UInt8)

/-! ## The registration -/

/-- The number of the first clusters of a schema and their ids, in the order of the schema. -/
def firstClusters : Bytes :=
  UInt8.ofNat (min 16 schema.clusters.size) ::
    ((schema.clusters.entries.map (·.id)).take 16).flatMap bytes16

/-- The payload that registers the endpoint of the gateway with the first clusters of a schema in
both directions. -/
def payload : Bytes :=
  [endpoint, 0x04, 0x01, 0x05, 0x00, 0x00, 0x00] ++ firstClusters schema ++ firstClusters schema

/-- A ping is answered with at least two bytes. -/
def PingReply (bs : Bytes) : Prop := 2 ≤ bs.length

/-- The network has started, as the one that it was or as a new one. -/
def StartUpReply (bs : Bytes) : Prop := bs.head? = some 0 ∨ bs.head? = some 1

/-- The endpoint is known, from now on or already. -/
def RegisterReply (bs : Bytes) : Prop := bs.head? = some 0x00 ∨ bs.head? = some 0xb8

/-- The requests that bring up the radio. -/
def steps : Script :=
  [(.ping, PingReply), (.startUp delay, StartUpReply),
    (⟨.af, 0x00, payload schema endpoint⟩, RegisterReply)]

example : (script Schema.empty 1).after [.ended (.ok ⟨.response, .sys, 0x01, [0x59, 0x06]⟩),
      .ended (.ok ⟨.response, .zdo, 0x40, [0x01]⟩),
      .ended (.ok ⟨.response, .af, 0x00, [0xb8]⟩)] = .done (.ok ()) := by
  cbv

end ZigbeeGateway.StartUp
