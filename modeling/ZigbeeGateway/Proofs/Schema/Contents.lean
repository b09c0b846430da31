-- What a schema says, as plain lists, and the INFO texts that say it. The order of the lists is
-- the order in the text; how the text is laid out, where the sections of a cluster are cut, and
-- how numbers are written does not matter.
import Mathlib.Data.List.Forall2
import ZigbeeGateway.Proofs.Info.Grammar
import ZigbeeGateway.Proofs.Schema.Keywords
import ZigbeeGateway.Proofs.Schema.Literals
namespace ZigbeeGateway

open Info (Node Placed Layout Forest)

/-! ## Contents -/

/-- A cluster as it stands in a text. -/
structure ClusterContents where
  id : UInt16
  name : String
  attributes : List AttributeInfo
  commandsIn : List Command
  commandsOut : List Command

instance : Entry ClusterContents := ⟨(·.id.toNat), (·.name)⟩

/-- A schema as it stands in a text. -/
structure Contents where
  globalCommands : List Command
  clusters : List ClusterContents

/-- The tables of a cluster as lists. -/
def Cluster.contents (c : Cluster) : ClusterContents :=
  ⟨c.id, c.name, c.attributes.entries, c.commandsIn.entries, c.commandsOut.entries⟩

/-- The tables of a schema as lists. -/
def Schema.contents (s : Schema) : Contents :=
  ⟨s.globalCommands.entries, s.clusters.entries.map Cluster.contents⟩

/-- No number and no name stands twice. -/
structure Distinct {α : Type} [Entry α] (entries : List α) : Prop where
  ids : (entries.map Entry.id).Nodup
  names : (entries.map Entry.name).Nodup

/-- The properties of a command can be sent. -/
def Command.Sound (c : Command) : Prop := (PayloadType.object c.payload).check = .ok ()

/-- A cluster that a schema can have. -/
structure ClusterContents.Sound (c : ClusterContents) : Prop where
  attributes : Distinct c.attributes
  commandsIn : Distinct c.commandsIn
  commandsOut : Distinct c.commandsOut
  payloads : ∀ command ∈ c.commandsIn ++ c.commandsOut, command.Sound

/-- Contents that a schema can have. -/
structure Contents.Sound (c : Contents) : Prop where
  globalCommands : Distinct c.globalCommands
  payloads : ∀ command ∈ c.globalCommands, command.Sound
  clusters : Distinct c.clusters
  inside : ∀ cluster ∈ c.clusters, cluster.Sound

instance {α : Type} [Entry α] (entries : List α) : Decidable (Distinct entries) :=
  decidable_of_iff ((entries.map Entry.id).Nodup ∧ (entries.map Entry.name).Nodup)
    ⟨fun h => ⟨h.1, h.2⟩, fun h => ⟨h.ids, h.names⟩⟩

instance (c : Command) : Decidable c.Sound :=
  inferInstanceAs (Decidable ((PayloadType.object c.payload).check = .ok ()))

instance (c : ClusterContents) : Decidable c.Sound :=
  decidable_of_iff (Distinct c.attributes ∧ Distinct c.commandsIn ∧ Distinct c.commandsOut ∧
      ∀ command ∈ c.commandsIn ++ c.commandsOut, command.Sound)
    ⟨fun h => ⟨h.1, h.2.1, h.2.2.1, h.2.2.2⟩,
      fun h => ⟨h.attributes, h.commandsIn, h.commandsOut, h.payloads⟩⟩

instance (c : Contents) : Decidable c.Sound :=
  decidable_of_iff (Distinct c.globalCommands ∧ (∀ command ∈ c.globalCommands, command.Sound) ∧
      Distinct c.clusters ∧ ∀ cluster ∈ c.clusters, cluster.Sound)
    ⟨fun h => ⟨h.1, h.2.1, h.2.2.1, h.2.2.2⟩,
      fun h => ⟨h.globalCommands, h.payloads, h.clusters, h.inside⟩⟩

/-! ## As entries of a text -/

/-- The entry of a command: its number, its name and its properties. -/
structure Command.DeclaredBy (c : Command) (node : Node) : Prop where
  id : Literal c.id.toNat node.key.toList
  name : node.data = c.name
  payload : Declares node.children c.payload

/-- The block of an attribute. -/
inductive TypeEntry : Option Datatype → List Node → Prop
  | untyped : TypeEntry none []
  | typed {line : Nat} {t : Datatype} : TypeEntry (some t) [⟨line, "type", t.name, []⟩]

/-- The entry of an attribute. -/
structure AttributeInfo.DeclaredBy (a : AttributeInfo) (node : Node) : Prop where
  id : Literal a.id.toNat node.key.toList
  name : node.data = a.name
  datatype : TypeEntry a.datatype node.children

/-- The sections of a cluster, in any order. A table may be spread over several of them. -/
inductive Sections : List Node → List AttributeInfo → (ins outs : List Command) → Prop
  | nil : Sections [] [] [] []
  | attributes {line : Nat} {data : String} {block nodes : List Node}
      {front attributes : List AttributeInfo} {ins outs : List Command} :
      List.Forall₂ AttributeInfo.DeclaredBy front block → Sections nodes attributes ins outs →
      Sections (⟨line, "attributes", data, block⟩ :: nodes) (front ++ attributes) ins outs
  | commandsIn {line : Nat} {block nodes : List Node} {attributes : List AttributeInfo}
      {front ins outs : List Command} :
      List.Forall₂ Command.DeclaredBy front block → Sections nodes attributes ins outs →
      Sections (⟨line, "commands", "in", block⟩ :: nodes) attributes (front ++ ins) outs
  | commandsOut {line : Nat} {block nodes : List Node} {attributes : List AttributeInfo}
      {front ins outs : List Command} :
      List.Forall₂ Command.DeclaredBy front block → Sections nodes attributes ins outs →
      Sections (⟨line, "commands", "out", block⟩ :: nodes) attributes ins (front ++ outs)

/-- The entry of a cluster. -/
structure ClusterContents.DeclaredBy (c : ClusterContents) (node : Node) : Prop where
  id : Literal c.id.toNat node.key.toList
  name : node.data = c.name
  sections : Sections node.children c.attributes c.commandsIn c.commandsOut

/-- The sections of a global entry. -/
inductive GlobalSections : List Node → List Command → Prop
  | nil : GlobalSections [] []
  | commands {line : Nat} {block nodes : List Node} {front commands : List Command} :
      List.Forall₂ Command.DeclaredBy front block → GlobalSections nodes commands →
      GlobalSections (⟨line, "commands", "", block⟩ :: nodes) (front ++ commands)

/-- A global entry, by its data and its block: the commands themselves or sections of them. -/
inductive GlobalEntry : String → List Node → List Command → Prop
  | commands {block : List Node} {commands : List Command} :
      List.Forall₂ Command.DeclaredBy commands block → GlobalEntry "commands" block commands
  | sections {block : List Node} {commands : List Command} :
      GlobalSections block commands → GlobalEntry "" block commands

/-- The entries of a whole text. Global commands may stand between the clusters. -/
inductive Entries : List Node → List Command → List ClusterContents → Prop
  | nil : Entries [] [] []
  | globals {line : Nat} {data : String} {block nodes : List Node}
      {front commands : List Command} {clusters : List ClusterContents} :
      GlobalEntry data block front → Entries nodes commands clusters →
      Entries (⟨line, "global", data, block⟩ :: nodes) (front ++ commands) clusters
  | cluster {node : Node} {nodes : List Node} {commands : List Command} {c : ClusterContents}
      {clusters : List ClusterContents} :
      c.DeclaredBy node → Entries nodes commands clusters →
      Entries (node :: nodes) commands (c :: clusters)

/-- The INFO texts that say what a schema has to have. -/
def Contents.WrittenAs (c : Contents) (text : String) : Prop :=
  ∃ tokens nodes, Layout 1 tokens text.toList ∧ Forest tokens nodes ∧
    Entries nodes c.globalCommands c.clusters

end ZigbeeGateway
