-- The topics of the message bus. Reports go to `<first>/<address>/<endpoint>/in/...`, and
-- commands come from `<first>/<address>/<endpoint>/out/<cluster>/<command>`.
import ZigbeeGateway.Payload.Read
import ZigbeeGateway.Text.Cut
namespace ZigbeeGateway.Topic

/-- The first level of topics unless it is said otherwise. -/
def defaultFirst : String := "zhub"

/-- A character as part of a level: those with a meaning in topics become underscores. -/
def levelChar (c : Char) : Char := if c = '/' ∨ c = '+' ∨ c = '#' then '_' else c

/-- A name as one level of a topic. -/
def level (name : String) : String := String.ofList (name.toList.map levelChar)

/-- A device address as a level. -/
def addressLevel (address : UInt64) : String := addressText address.toNat

/-- The address in a level of exactly sixteen hex digits, in either case. -/
def parseAddress? (cs : List Char) : Option UInt64 :=
  if cs.length = 16 then (Numeral.ofDigits? 16 cs).map UInt64.ofNat else none

/-- What a report is about. -/
structure Subject where
  address : UInt64
  endpoint : UInt8
  cluster : String
  command : String
deriving DecidableEq, Repr

/-- The topic for reports of a command, or of one attribute in it. -/
def report (first : String) (s : Subject) (attr : Option String) : String :=
  first ++ "/" ++ addressLevel s.address ++ "/" ++ inDecimal s.endpoint.toNat ++ "/in/" ++
    level s.cluster ++ "/" ++ level s.command ++ attr.elim "" fun a => "/" ++ level a

/-- The filter that matches every topic for commands. -/
def commandFilter (first : String) : String := first ++ "/+/+/out/#"

/-- The command that a topic asks for, its cluster and name as the topic gives them. -/
def parseCommand? (first topic : String) : Option Subject :=
  match (Cut.after? (first.toList ++ ['/']) topic.toList).map (Cut.atEvery '/') with
  | some [address, endpoint, ['o', 'u', 't'], cluster, command] => do
    if cluster.isEmpty || command.isEmpty then failure
    let address ← parseAddress? address
    let endpoint ← Numeral.below? UInt8.size 10 endpoint
    return ⟨address, UInt8.ofNat endpoint, String.ofList cluster, String.ofList command⟩
  | _ => none

end ZigbeeGateway.Topic
