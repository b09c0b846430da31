-- Bringing up the radio: it must answer a ping, start its network, and take the endpoint of
-- the gateway.
import ZigbeeGateway.Radio.Conversation
import ZigbeeGateway.Schema.Cluster
namespace ZigbeeGateway.StartUp

open Radio

/-- Why the radio does not come up. -/
inductive Failure where
  | noPing (e : LinkError)
  | notStarted (status : UInt8)
  | link (e : LinkError)
deriving DecidableEq, Repr

/-- The wording of a failure. -/
def Failure.message : Failure → String
  | noPing e => "Coordinator did not answer ping: " ++ e.message
  | notStarted status => "Network did not start (status " ++ inDecimal status.toNat ++ ")"
  | link e => e.message

/-- How long the radio waits before it starts its network, in milliseconds. -/
def delay : UInt16 := 100

/-- The home automation profile. -/
def profile : UInt16 := 0x0104

/-- A configuration tool. -/
def device : UInt16 := 0x0005

/-- The clusters of a schema that are made known, as many as the radio takes. -/
def clusters (schema : Schema) : List UInt16 :=
  (schema.clusters.entries.map (·.id)).take Registration.maxClusters

/-- The endpoint of the gateway with the clusters of a schema. -/
def registration (schema : Schema) (endpoint : UInt8) : Registration :=
  ⟨endpoint, profile, device, 0, 0, clusters schema, clusters schema⟩

/-- The last step: makes the endpoint known. -/
def register (schema : Schema) (endpoint : UInt8) : Conversation (Except Failure Unit) :=
  match Request.register (registration schema endpoint) with
  | .error e => .done (.error (.link e))
  | .ok r => .ask r fun answer => .done ((answer.bind readRegister).mapError .link)

/-- The second step: starts the network. A known network has status 0, a new one status 1. -/
def startNetwork (schema : Schema) (endpoint : UInt8) : Conversation (Except Failure Unit) :=
  .ask (.startUp delay) fun answer =>
    match answer.bind readStartUp with
    | .error e => .done (.error (.link e))
    | .ok status =>
      if status ≤ 1 then register schema endpoint else .done (.error (.notStarted status))

/-- The conversation that brings up the radio. -/
def script (schema : Schema) (endpoint : UInt8) : Conversation (Except Failure Unit) :=
  .ask .ping fun answer =>
    match answer.bind readPing with
    | .error e => .done (.error (.noPing e))
    | .ok _ => startNetwork schema endpoint

end ZigbeeGateway.StartUp
