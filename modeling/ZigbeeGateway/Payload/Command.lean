-- The payloads of commands: a record with the properties that the command declares.
import ZigbeeGateway.Payload.Write
namespace ZigbeeGateway.Command

/-- The record that a payload is, all of it. -/
def decodePayload (command : Command) (cluster : Option Cluster) (bs : Bytes) :
    Except ReadError Value := do
  let (v, rest) ← (PayloadType.object command.payload).decode cluster bs
  if rest.isEmpty then return v
  throw (.trailingPayload rest.length command.name)

/-- The payload for a record. -/
def encodePayload (command : Command) (cluster : Option Cluster) (v : Value) :
    Except WriteError Bytes :=
  ((PayloadType.object command.payload).encode cluster v).mapError (.inside command.name)

end ZigbeeGateway.Command
