-- The command line: what the program is asked to do, and with which settings. An option may
-- have its value in the same word, after an equals sign, or in the next one.
import ZigbeeGateway.Settings.Config
import ZigbeeGateway.Text.Cut
namespace ZigbeeGateway

/-- What the program is asked to do. -/
inductive Task where
  /-- Run the gateway, with some settings in place of those of the file. -/
  | run (port baudRate brokerUrl schema : Option String)
  /-- Show what is in the payload of a command. -/
  | decode (cluster command : String) (isGlobal : Bool) (schema : Option String) (hex : String)
  /-- Load a schema and say how much it defines. -/
  | checkSchema (file : String)
deriving DecidableEq, Repr

/-- A task, and the file with the settings. -/
structure CommandLine where
  settings : Option String
  task : Task
deriving DecidableEq, Repr

namespace CommandLine

/-! ## Words -/

/-- The words of a command line, sorted. -/
structure Words where
  /-- Options with their values, the last one first. -/
  options : List (String × String)
  /-- Options that take no value. -/
  flags : List String
  /-- All other words, in their order. -/
  others : List String
  /-- An option whose value is the next word. -/
  pending : Option String
deriving DecidableEq, Repr

/-- The options that take no value. -/
def flagNames : List String := ["global", "json-logs"]

/-- The options that take a value. -/
def optionNames : List String :=
  ["config", "log-level", "port", "baud-rate", "mqtt-url", "schema", "cluster", "command"]

/-- The option that a letter stands for. Some options have no letter. -/
def ofLetter? : Char → Option String
  | 'b' => some "baud-rate"
  | 'c' => some "config"
  | 'g' => some "global"
  | 'l' => some "log-level"
  | 'm' => some "mqtt-url"
  | 'p' => some "port"
  | 's' => some "schema"
  | _ => none

namespace Words

/-- No words. -/
def empty : Words := ⟨[], [], [], none⟩

/-- One more option, with a value if its word has one. -/
def addOption (w : Words) (name : String) (value : Option String) : Option Words :=
  if flagNames.contains name then
    if value.isSome then none else some { w with flags := name :: w.flags }
  else if optionNames.contains name then
    match value with
    | some v => some { w with options := (name, v) :: w.options }
    | none => some { w with pending := some name }
  else none

/-- The value in the rest of a word that starts with a letter. -/
def valueAfterLetter : List Char → Option String
  | [] => none
  | '=' :: cs => some (String.ofList cs)
  | cs => some (String.ofList cs)

/-- One more word. -/
def add (w : Words) (word : String) : Option Words :=
  match w.pending with
  | some name => some { w with options := (name, word) :: w.options, pending := none }
  | none =>
    match word.toList with
    | '-' :: '-' :: cs =>
      match Cut.atFirst? ['='] cs with
      | some (name, value) => w.addOption (String.ofList name) (some (String.ofList value))
      | none => w.addOption (String.ofList cs) none
    | '-' :: c :: cs => do w.addOption (← ofLetter? c) (valueAfterLetter cs)
    | _ => some { w with others := w.others ++ [word] }

/-- The words of a command line. No option may lack its value. -/
def sort? (words : List String) : Option Words :=
  (words.foldlM add empty).filter (·.pending.isNone)

/-- The value of an option. -/
def option? (w : Words) (name : String) : Option String :=
  (w.options.find? (·.1 == name)).map (·.2)

end Words

/-! ## Tasks -/

/-- The task that words ask for. -/
def task? (w : Words) : Option Task :=
  match w.others with
  | ["run"] =>
    some (.run (w.option? "port") (w.option? "baud-rate") (w.option? "mqtt-url")
      (w.option? "schema"))
  | ["decode", hex] => do
    return .decode (← w.option? "cluster") (← w.option? "command") (w.flags.contains "global")
      (w.option? "schema") hex
  | ["check-schema", file] => some (.checkSchema file)
  | _ => none

/-- What a command line asks for. -/
def ofWords? (words : List String) : Option CommandLine := do
  let w ← Words.sort? words
  return ⟨w.option? "config", ← task? w⟩

/-- How to use the command line. -/
def usage : String := "\n".intercalate [
  "usage: zhub [-c FILE] run [-p DEVICE] [-b BAUD] [-m URL] [-s SCHEMA]",
  "       zhub [-c FILE] decode --cluster C --command C [-g] [-s SCHEMA] HEX",
  "       zhub check-schema SCHEMA"]

end CommandLine

/-! ## Settings -/

/-- The settings of a file with those of the command line in their place. A rate that is no number
below `2 ^ 32` is refused. -/
def Settings.Config.override? (c : Settings.Config)
    (port baudRate brokerUrl schema : Option String) : Option Settings.Config := do
  let rate ← match baudRate with
    | none => some c.serial.baudRate
    | some text => (Numeral.below? UInt32.size 10 text.toList).map UInt32.ofNat
  return {
    serial := { c.serial with port := port.getD c.serial.port, baudRate := rate }
    broker := { c.broker with url := brokerUrl.getD c.broker.url }
    network := { c.network with schema := schema.getD c.network.schema } }

end ZigbeeGateway
