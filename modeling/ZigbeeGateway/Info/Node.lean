-- INFO texts as trees. An entry is a key, at most one text of data on the same line, and a
-- block of entries in braces, which may start on the same line or on a later one.
import ZigbeeGateway.Info.Token
namespace ZigbeeGateway.Info

/-- An entry with the entries in its block, and the line of its key. Missing data is the empty
text. -/
structure Node where
  line : Nat
  key : String
  data : String
  children : List Node
deriving Repr, Inhabited

/-- The first child with a key. -/
def Node.child? (node : Node) (key : String) : Option Node :=
  node.children.find? (·.key == key)

/-- How far the entry at the end of a block is known. -/
inductive Pending where
  /-- No entry stands at the end. -/
  | fresh
  /-- A key, with its line; data may follow. -/
  | keyed (line : Nat) (key : String)
  /-- A key with its data, in a line that may hold no more text. -/
  | full (line : Nat) (key data : String)
  /-- An entry whose line is over. It may still get a block. -/
  | rested (line : Nat) (key data : String)
deriving Repr

/-- A block that is still open, with the entry that it belongs to and the entries before that one
in reverse. -/
structure Open where
  /-- The line of the opening brace. -/
  opened : Nat
  line : Nat
  key : String
  data : String
  before : List Node
deriving Repr

/-- Where the reading of entries stands: the open blocks, innermost first, the complete entries of
the innermost in reverse, and the entry at its end. -/
structure Build where
  blocks : List Open
  nodes : List Node
  pending : Pending
deriving Repr

namespace Build

/-- The start of a text. -/
def start : Build := ⟨[], [], .fresh⟩

/-- The entry at the end, if there is one, is complete without a block. -/
def settle (b : Build) : Build :=
  match b.pending with
  | .fresh => b
  | .keyed line key => { b with nodes := ⟨line, key, "", []⟩ :: b.nodes, pending := .fresh }
  | .full line key data | .rested line key data =>
    { b with nodes := ⟨line, key, data, []⟩ :: b.nodes, pending := .fresh }

/-- A block starts for the given entry. -/
def enter (b : Build) (opened line : Nat) (key data : String) : Build :=
  ⟨⟨opened, line, key, data, b.nodes⟩ :: b.blocks, [], .fresh⟩

/-- The innermost block ends. -/
def leave (b : Build) (line : Nat) : Except SchemaError Build :=
  let b := b.settle
  match b.blocks with
  | [] => .error (.atLine line .unmatchedBrace)
  | o :: outer => .ok ⟨outer, ⟨o.line, o.key, o.data, b.nodes.reverse⟩ :: o.before, .fresh⟩

/-- The next token. -/
def step (b : Build) (t : Placed) : Except SchemaError Build :=
  match t.token, b.pending with
  | .text data, .keyed line key => .ok { b with pending := .full line key data }
  | .text extra, .full line _ _ => .error (.atLine line (.textAfterData extra))
  | .text key, _ => .ok { b.settle with pending := .keyed t.line key }
  | .lineBreak, .keyed line key => .ok { b with pending := .rested line key "" }
  | .lineBreak, .full line key data => .ok { b with pending := .rested line key data }
  | .lineBreak, _ => .ok b
  | .opening, .fresh => .error (.atLine t.line .braceWithoutKey)
  | .opening, .keyed line key => .ok (b.enter t.line line key "")
  | .opening, .full line key data | .opening, .rested line key data =>
    .ok (b.enter t.line line key data)
  | .closing, _ => b.leave t.line

/-- The entries of a text that ends here. -/
def finish (b : Build) : Except SchemaError (List Node) :=
  match b.blocks with
  | [] => .ok b.settle.nodes.reverse
  | o :: _ => .error (.atLine o.opened .unclosedBrace)

end Build

/-- The entries that tokens make up. -/
def nodes (tokens : List Placed) : Except SchemaError (List Node) := do
  (← tokens.foldlM Build.step .start).finish

/-- The entries of a text. -/
def parse (text : String) : Except SchemaError (List Node) := do
  nodes (← tokens text.toList)

end ZigbeeGateway.Info
