-- What can go wrong between the radio and the message bus.
import ZigbeeGateway.Mqtt.Url
import ZigbeeGateway.Payload.WriteError
import ZigbeeGateway.Radio.Frame
namespace ZigbeeGateway

inductive GatewayError where
  | invalidUrl (url : String) (fault : Mqtt.UrlFault)
  | invalidTopic (topic : String)
  | unknownCluster (id : UInt16)
  | unknownClusterName (name : String)
  | unknownCommand (cluster : UInt16) (command : UInt8)
  | unknownCommandName (cluster command : String)
  /-- The payload of a command is no JSON text. -/
  | invalidPayload
  /-- The bus does not take a message. -/
  | publish (reason : String)
  | read (e : ReadError)
  | write (e : WriteError)
  | link (e : Radio.LinkError)
  | alreadyRunning
deriving Repr

namespace GatewayError

/-- The wording of an error. -/
def message : GatewayError → String
  | invalidUrl url fault => "invalid MQTT URL " ++ inQuotes url ++ ": " ++ fault.message
  | invalidTopic topic => "invalid topic " ++ inQuotes topic
  | unknownCluster id => "unknown cluster " ++ inHex 4 id.toNat
  | unknownClusterName name => "unknown cluster " ++ inQuotes name
  | unknownCommand cluster command =>
    "unknown command " ++ inHex 2 command.toNat ++ " for cluster " ++
      inHex 4 cluster.toNat
  | unknownCommandName cluster command =>
    "unknown command " ++ inQuotes command ++ " for cluster " ++ inQuotes cluster
  | invalidPayload => "invalid payload"
  | publish reason => "publish failed: " ++ reason
  | read e => e.message
  | write e => e.message
  | link e => e.message
  | alreadyRunning => "bridge error: MQTT bus already running"

end GatewayError

end ZigbeeGateway
