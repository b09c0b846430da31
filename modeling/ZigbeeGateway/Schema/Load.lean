-- Schemas from INFO texts. An entry of the text is a cluster, or says `global` and holds
-- the commands that every cluster understands.
import ZigbeeGateway.Info.Node
import ZigbeeGateway.Schema.Cluster
import ZigbeeGateway.Text.Cut
namespace ZigbeeGateway

open Info (Node)

/-! ## Numbers -/

/-- A number below `2 ^ 64` as schemas write it: hex after `0x`, octal after a leading zero, else
decimal. No sign is allowed. -/
def literal? (cs : List Char) : Option Nat :=
  let n := match cs with
    | '0' :: 'x' :: ds => Numeral.ofDigits? 16 ds
    | '0' :: 'X' :: ds => Numeral.ofDigits? 16 ds
    | '0' :: d :: ds => Numeral.ofDigits? 8 (d :: ds)
    | ds => Numeral.ofDigits? 10 ds
  n.filter (· < UInt64.size)

/-- The number of an entry, which must be below `limit`. -/
def Info.Node.id (node : Node) (what : String) (limit : Nat) : Except SchemaError Nat :=
  match (literal? node.key.toList).filter (· < limit) with
  | some n => .ok n
  | none => .error (.atLine node.line (.invalidId what node.key node.data))

/-! ## Types -/

/-- What a keyword wraps around the type that its end names. -/
inductive Wrapper where
  | repeated
  | errorOr
deriving DecidableEq, Repr

def Wrapper.apply (inner : PayloadType) : Wrapper → PayloadType
  | repeated => .repeated inner
  | errorOr => .errorOr inner

/-- The wrappers that a keyword starts with, outermost first, and the rest of it. -/
def unwrap : List Char → List Wrapper × List Char
  | 'r' :: 'e' :: 'p' :: 'e' :: 'a' :: 't' :: 'e' :: 'd' :: ':' :: rest =>
    let (wrappers, leaf) := unwrap rest
    (.repeated :: wrappers, leaf)
  | 'e' :: 'r' :: 'r' :: 'o' :: 'r' :: '_' :: 'o' :: 'r' :: ':' :: rest =>
    let (wrappers, leaf) := unwrap rest
    (.errorOr :: wrappers, leaf)
  | cs => ([], cs)

/-- The type that wrappers make of another one. -/
def wrap (wrappers : List Wrapper) (inner : PayloadType) : PayloadType :=
  wrappers.foldr (fun w type => w.apply type) inner

/-- The type of a keyword that takes no block. -/
def leafType? (keyword : String) : Option PayloadType :=
  if keyword = "variant" then some .variant
  else if keyword = "attribute" then some (.scalar .attributeId)
  else (Datatype.ofName? keyword).map .scalar

mutual

/-- The type of a property, from the keyword that is its key; objects have their properties in the
block. -/
def propertyType (owner : String) : Node → Except SchemaError PayloadType
  | ⟨line, key, data, children⟩ =>
    let (wrappers, rest) := unwrap key.toList
    let keyword := String.ofList rest
    if keyword = "object" then
      (properties data children).map fun ps => wrap wrappers (.object ps)
    else if keyword = "repeated" then
      (properties data children).map fun ps => wrap wrappers (.repeated (.object ps))
    else
      match leafType? keyword with
      | none => .error (.atLine line (.unknownPropertyType keyword data owner))
      | some leaf =>
        if children.isEmpty then .ok (wrap wrappers leaf)
        else .error (.atLine line (.noChildrenAllowed keyword data owner))

/-- The properties that the entries of a block name. -/
def properties (owner : String) : List Node → Except SchemaError Properties
  | [] => .ok []
  | node :: rest =>
    match propertyType owner node with
    | .error e => .error e
    | .ok type => (properties owner rest).map ((node.data, type) :: ·)

end

/-! ## Tables -/

/-- Adds a command to the table of an owner. -/
def addCommand (owner : String) (table : Table Command) (node : Node) :
    Except SchemaError (Table Command) := do
  let payload ← properties node.data node.children
  (PayloadType.object payload).check.mapError (.inOwner · node.data)
  let id ← node.id "command" UInt8.size
  (table.add ⟨UInt8.ofNat id, node.data, payload⟩).mapError (.inOwner · owner)

/-- Adds commands to the table of an owner. -/
def addCommands (owner : String) (table : Table Command) (nodes : List Node) :
    Except SchemaError (Table Command) :=
  nodes.foldlM (addCommand owner) table

/-- The datatype of an attribute after one more entry of its block. The only entry allowed is one
type. -/
def attributeType (cluster attr : String) (known : Option Datatype) (node : Node) :
    Except SchemaError (Option Datatype) :=
  if node.key ≠ "type" ∨ known.isSome then
    .error (.atLine node.line (.unexpectedProperty node.key attr cluster))
  else
    match Datatype.ofName? node.data with
    | some t => .ok (some t)
    | none => .error (.atLine node.line (.unknownAttributeType node.data attr cluster))

/-- Adds an attribute to the table of a cluster. -/
def addAttribute (cluster : String) (table : Table AttributeInfo) (node : Node) :
    Except SchemaError (Table AttributeInfo) := do
  let datatype ← node.children.foldlM (attributeType cluster node.data) none
  let id ← node.id "attribute" UInt16.size
  (table.add ⟨UInt16.ofNat id, node.data, datatype⟩).mapError (.inOwner · cluster)

/-- Adds a section to a cluster: attributes, or commands of one direction. -/
def Cluster.addSection (cluster : Cluster) (node : Node) : Except SchemaError Cluster :=
  if node.key = "attributes" then
    (node.children.foldlM (addAttribute cluster.name) cluster.attributes).map
      fun table => { cluster with attributes := table }
  else if node.key = "commands" then
    if node.data = "in" then
      (addCommands cluster.name cluster.commandsIn node.children).map
        fun table => { cluster with commandsIn := table }
    else if node.data = "out" then
      (addCommands cluster.name cluster.commandsOut node.children).map
        fun table => { cluster with commandsOut := table }
    else .error (.atLine node.line (.commandsDirection cluster.name node.data))
  else .error (.atLine node.line (.unknownSection node.key cluster.name))

/-- The cluster of an entry. -/
def Cluster.ofNode (node : Node) : Except SchemaError Cluster := do
  let id ← node.id "cluster" UInt16.size
  node.children.foldlM addSection (bare (UInt16.ofNat id) node.data)

/-! ## Schemas -/

/-- Adds a section of the global entry. -/
def addGlobalSection (table : Table Command) (node : Node) : Except SchemaError (Table Command) :=
  if node.key = "commands" ∧ node.data = "" then addCommands "global" table node.children
  else .error (.atLine node.line (.unknownSectionInGlobal node.key))

/-- Adds the commands of a global entry. -/
def addGlobal (table : Table Command) (node : Node) : Except SchemaError (Table Command) :=
  if node.data = "commands" then addCommands "global" table node.children
  else if node.data = "" then node.children.foldlM addGlobalSection table
  else .error (.atLine node.line (.unknownGlobalSection node.data))

namespace Schema

/-- Adds an entry of the text. -/
def addNode (schema : Schema) (node : Node) : Except SchemaError Schema :=
  if node.key = "global" then
    (addGlobal schema.globalCommands node).map fun table => { schema with globalCommands := table }
  else do
    let cluster ← Cluster.ofNode node
    return { schema with clusters := ← schema.clusters.add cluster }

/-- The schema that a text describes. The first error ends the reading. -/
def load (text : String) : Except SchemaError Schema := do
  (← Info.parse text).foldlM addNode empty

end Schema

end ZigbeeGateway
