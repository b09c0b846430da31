-- Settings from TOML and JSON texts. A section may also be an array, which gives the settings
-- in their order.
import ZigbeeGateway.Json.Read
import ZigbeeGateway.Settings.Config
import ZigbeeGateway.Toml.Read
namespace ZigbeeGateway.Settings

/-! ## JSON -/

/-- A part of a JSON text as a setting. -/
def ofTree : Json.Tree → Entry
  | .null => .null
  | .bool b => .flag b
  | .number n =>
    match n.toValue? with
    | some (.int n) => .whole n.toInt
    | some (.uint n) => .whole n.toNat
    | _ => .other
  | .string parts => (Json.text? parts).elim .other .text
  | .array _ | .object _ => .other

/-- The members of an object that have one of the names, which none may have twice. Of the others
only the names are looked at. -/
def members? (names : List String) (seen : Section) :
    List (List Json.StringPart × Json.Tree) → Option Section
  | [] => some seen
  | (parts, tree) :: rest => do
    let name ← Json.text? parts
    if !names.contains name then members? names seen rest
    else if seen.any (·.1 == name) then failure
    else members? names ((name, ofTree tree) :: seen) rest

/-- The section that a JSON text is. -/
def treeSection? (names : List String) : Json.Tree → Option Section
  | .object members => members? names [] members
  | .array items =>
    if items.length ≤ names.length then some (names.zip (items.map ofTree)) else none
  | _ => none

/-- The settings of a broker in a JSON text. -/
def Broker.ofJson? (text : String) : Option Broker := do
  ofSection? (← treeSection? names (← Json.parse? text.toList))

/-! ## TOML -/

/-- A part of a TOML text as a setting. -/
def ofValue : Toml.Value → Entry
  | .text s => .text s
  | .integer n => .whole n
  | .boolean b => .flag b
  | _ => .other

/-- The section under a name of a TOML text. A time counts as a section without settings, and an
array may have more items than there are settings. -/
def valueSection? (names : List String) : Option Toml.Value → Option Section
  | none => some []
  | some (.table entries) => some (entries.map fun (name, v) => (name, ofValue v))
  | some (.array items) => some (names.zip (items.map ofValue))
  | some .time => some []
  | some _ => none

/-- The settings in a TOML text, whatever they are. -/
def Config.ofToml? (text : String) : Option Config := do
  let root ← Toml.read? text
  let sectionOf (name : String) (names : List String) : Option Section :=
    valueSection? names ((root.find? (·.1 == name)).map (·.2))
  let serial ← Serial.ofSection? (← sectionOf "serial" Serial.names)
  let broker ← Broker.ofSection? (← sectionOf "mqtt" Broker.names)
  let network ← Network.ofSection? (← sectionOf "zigbee" Network.names)
  return ⟨serial, broker, network⟩

/-- Why a text gives no settings to work with. -/
inductive LoadError where
  /-- The text is no TOML, or a setting has the wrong kind. -/
  | text
  | fault (f : Fault)
deriving DecidableEq, Repr

/-- The wording of an error. -/
def LoadError.message : LoadError → String
  | text => "not TOML, or a setting of the wrong kind"
  | fault f => f.message

/-- The settings in a TOML text. -/
def Config.load (text : String) : Except LoadError Config :=
  match ofToml? text with
  | none => .error .text
  | some config =>
    match config.fault? with
    | none => .ok config
    | some f => .error (.fault f)

end ZigbeeGateway.Settings
