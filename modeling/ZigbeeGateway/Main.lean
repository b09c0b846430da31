-- The program: it reads the files that the command line names, and prints. What it prints
-- is decided elsewhere.
import ZigbeeGateway.CommandLine
import ZigbeeGateway.Gateway.Inspect
import ZigbeeGateway.Json.Write
import ZigbeeGateway.Schema.Load
import ZigbeeGateway.Settings.Load
namespace ZigbeeGateway

/-- The text of a file; `what` says what the file holds. -/
def readText (what file : String) : IO (Except String String) := do
  try return .ok (← IO.FS.readFile file)
  catch e => return .error s!"Failed to read {what} {file}: {e}"

/-- The schema in a file. -/
def readSchema (file : String) : IO (Except String Schema) := do
  match ← readText "schema" file with
  | .error e => return .error e
  | .ok text => return (Schema.load text).mapError fun e => s!"Invalid schema {file}: {e.message}"

/-- The settings in a file, or those that are left out if there is no file. -/
def readSettings : Option String → IO (Except String Settings.Config)
  | none => return .ok .default
  | some file => do
    match ← readText "config" file with
    | .error e => return .error e
    | .ok text =>
      return (Settings.Config.load text).mapError fun e => s!"Invalid config {file}: {e.message}"

/-- Ends the program with a message. -/
def fail (message : String) : IO UInt32 := do
  IO.eprintln s!"Error: {message}"
  return 1

/-- Shows what is in the payload of a command. -/
def showPayload (file cluster command : String) (isGlobal : Bool) (hex : String) : IO UInt32 := do
  match ← readSchema file with
  | .error e => fail e
  | .ok schema =>
    match Inspect.parseHex hex >>= Inspect.decode schema cluster command isGlobal with
    | .error e => fail e.message
    | .ok v => IO.println (Json.pretty v); return 0

/-- Says how much a schema defines. -/
def showSummary (file : String) : IO UInt32 := do
  match ← readSchema file with
  | .error e => IO.println s!"ERROR {e}"; return 1
  | .ok schema => IO.println s!"OK {file}: {schema.summary.text}"; return 0

/-- Does what the command line asks for. -/
def perform (settings : Settings.Config) : Task → IO UInt32
  | .decode cluster command isGlobal schema hex =>
    showPayload (schema.getD settings.network.schema) cluster command isGlobal hex
  | .checkSchema file => showSummary file
  | .run port baudRate brokerUrl schema =>
    match settings.override? port baudRate brokerUrl schema with
    | none => fail "the baud rate is not a number"
    | some settings =>
      match settings.fault? with
      | some f => fail f.message
      | none => fail "zhub was built without serial support"

end ZigbeeGateway

open ZigbeeGateway in
def main (words : List String) : IO UInt32 := do
  match CommandLine.ofWords? words with
  | none => IO.eprintln CommandLine.usage; return 2
  | some line =>
    let file := line.settings.or (← IO.getEnv "ZHUB_CONFIG")
    match ← readSettings file with
    | .error e => fail e
    | .ok settings => perform settings line.task
