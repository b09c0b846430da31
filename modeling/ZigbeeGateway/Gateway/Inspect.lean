-- Looking into payloads without a radio: bytes as somebody types them, and the command that
-- they belong to by name or number.
import ZigbeeGateway.Payload.Command
import ZigbeeGateway.Text.Blank
import ZigbeeGateway.Text.Hex
namespace ZigbeeGateway.Inspect

/-- Why a payload cannot be looked into. -/
inductive Failure where
  | badDigit (c : Char) (text : String)
  | oddDigits (text : String)
  | unknownCluster (key : String)
  | unknownCommand (isGlobal : Bool) (key cluster : String)
  | unreadable (command : String) (e : ReadError)
deriving Repr

/-- The wording of a failure. -/
def Failure.message : Failure → String
  | badDigit c text => "invalid hex digit " ++ inQuotes c.toString ++ " in " ++ inQuotes text
  | oddDigits text => "odd number of hex digits in " ++ inQuotes text
  | unknownCluster key => "unknown cluster " ++ inQuotes key
  | unknownCommand isGlobal key cluster =>
    "unknown " ++ (if isGlobal then "global " else "") ++ "command " ++ inQuotes key ++
      " for cluster " ++ inQuotes cluster
  | unreadable command e => "Failed to decode " ++ inQuotes command ++ ": " ++ e.message

/-- The text after all base marks in front of it. -/
def dropMarks : List Char → List Char
  | '0' :: 'x' :: rest => dropMarks rest
  | cs => cs

/-- Whether a character may stand between hex digits. -/
def isSeparator (c : Char) : Bool := c == ' ' || c == ':' || c == '-'

/-- The bytes that hex digits give, with white space around them, base marks in front, and
separators anywhere. -/
def parseHex (text : String) : Except Failure Bytes :=
  let digits := (dropMarks (trimWhiteSpace text.toList)).filter (!isSeparator ·)
  match digits.find? (!Numeral.isHexDigit ·) with
  | some c => .error (.badDigit c text)
  | none =>
    match Hex.toBytes? digits with
    | some bs => .ok bs
    | none => .error (.oddDigits text)

/-- The entry of a table that a key names or numbers. -/
def find? {α : Type} [Entry α] (table : Table α) (limit : Nat) (key : String) : Option α :=
  (table.withName? key).or ((Numeral.hexOrDecimal? limit key.toList).bind table.withId?)

/-- The cluster that a key names or numbers. -/
def cluster (schema : Schema) (key : String) : Except Failure Cluster :=
  match find? schema.clusters UInt16.size key with
  | some c => .ok c
  | none => .error (.unknownCluster key)

/-- The command that a key names or numbers: a global one, or one of the cluster, first of those
that come in and then of those that go out. -/
def command (schema : Schema) (cluster : Cluster) (isGlobal : Bool) (key : String) :
    Except Failure Command :=
  let found :=
    if isGlobal then find? schema.globalCommands UInt8.size key
    else (find? cluster.commandsIn UInt8.size key).or (find? cluster.commandsOut UInt8.size key)
  match found with
  | some command => .ok command
  | none => .error (.unknownCommand isGlobal key cluster.name)

/-- The record in the payload of a command. -/
def decode (schema : Schema) (clusterKey commandKey : String) (isGlobal : Bool) (bs : Bytes) :
    Except Failure Value := do
  let cluster ← cluster schema clusterKey
  let command ← command schema cluster isGlobal commandKey
  (command.decodePayload (some cluster) bs).mapError (.unreadable command.name)

end ZigbeeGateway.Inspect
