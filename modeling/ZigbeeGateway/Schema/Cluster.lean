-- What a schema knows: clusters with their attributes and commands, and the commands that
-- every cluster understands.
import ZigbeeGateway.Payload.Type
import ZigbeeGateway.Schema.Table
namespace ZigbeeGateway

/-- An attribute of a cluster. One without a datatype is only ever sent with its type beside it. -/
structure AttributeInfo where
  id : UInt16
  name : String
  datatype : Option Datatype
deriving Repr

/-- A command, global or of one cluster, with the properties that it carries. -/
structure Command where
  id : UInt8
  name : String
  payload : Properties
deriving Repr

instance : Entry AttributeInfo := ⟨(·.id.toNat), (·.name)⟩

instance : Entry Command := ⟨(·.id.toNat), (·.name)⟩

/-- A cluster: its attributes, the commands that come in from devices, and those that go out to
them. -/
structure Cluster where
  id : UInt16
  name : String
  attributes : Table AttributeInfo
  commandsIn : Table Command
  commandsOut : Table Command

instance : Entry Cluster := ⟨(·.id.toNat), (·.name)⟩

/-- A cluster without attributes and commands. -/
def Cluster.bare (id : UInt16) (name : String) : Cluster :=
  ⟨id, name, Table.empty, Table.empty, Table.empty⟩

/-- A loaded schema. -/
structure Schema where
  clusters : Table Cluster
  globalCommands : Table Command

namespace Schema

/-- The schema without clusters and commands. -/
def empty : Schema := ⟨Table.empty, Table.empty⟩

/-- The command to send under a name, and whether it is a global one; global commands go first. -/
def commandOut? (s : Schema) (clusterId : UInt16) (name : String) : Option (Bool × Command) :=
  match s.globalCommands.withName? name with
  | some command => some (true, command)
  | none => do
    let cluster ← s.clusters.withId? clusterId.toNat
    let command ← cluster.commandsOut.withName? name
    return (false, command)

/-- How much a schema defines. -/
structure Summary where
  clusters : Nat
  attributes : Nat
  globalCommands : Nat
  clusterCommands : Nat
deriving DecidableEq, Repr

/-- The counts in words. -/
def Summary.text (s : Summary) : String :=
  ", ".intercalate [
    inDecimal s.clusters ++ " clusters", inDecimal s.attributes ++ " attributes",
    inDecimal s.globalCommands ++ " global commands",
    inDecimal s.clusterCommands ++ " cluster commands"]

/-- Counts what a schema defines. -/
def summary (s : Schema) : Summary where
  clusters := s.clusters.size
  attributes := (s.clusters.entries.map (·.attributes.size)).foldl (· + ·) 0
  globalCommands := s.globalCommands.size
  clusterCommands :=
    (s.clusters.entries.map fun c => c.commandsIn.size + c.commandsOut.size).foldl (· + ·) 0

end Schema

end ZigbeeGateway
