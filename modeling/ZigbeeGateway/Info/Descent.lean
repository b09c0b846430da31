-- The entries of an INFO text read by descent: one function reads the entries of a block, another
-- one entry, and each hands on the tokens that it leaves. The brace of a block is looked for over
-- line breaks; where there is none, the reading goes back to the end of the line.
import ZigbeeGateway.Info.Node
namespace ZigbeeGateway.Info

/-- How a descent fails. -/
inductive DescentFault where
  | schema (e : SchemaError)
  /-- A line break stands where all of them have been skipped. -/
  | lineBreakLeft
deriving DecidableEq, Repr

namespace Descent

/-- Tokens without the line breaks in front. -/
def skipBreaks (ts : List Placed) : List Placed := ts.dropWhile (·.token == .lineBreak)

theorem length_skipBreaks_le (ts : List Placed) : (skipBreaks ts).length ≤ ts.length :=
  (List.dropWhile_suffix _).length_le

theorem length_lt_of_skipBreaks {ts rest : List Placed} {t : Placed}
    (h : skipBreaks ts = t :: rest) : rest.length < ts.length := by
  have hle := length_skipBreaks_le ts
  rw [h] at hle
  exact hle

/-- What may be left of tokens. -/
abbrev Left (ts : List Placed) := { rest : List Placed // rest.length ≤ ts.length }

/-- The data behind a key, which may be missing. No other text may follow in the line. -/
def readData (line : Nat) (ts : List Placed) : Except DescentFault (String × Left ts) :=
  match ts with
  | ⟨.text _, _⟩ :: ⟨.text extra, _⟩ :: _ => .error (.schema (.atLine line (.textAfterData extra)))
  | ⟨.text data, _⟩ :: rest => .ok (data, ⟨rest, Nat.le_succ _⟩)
  | rest => .ok ("", ⟨rest, Nat.le_refl _⟩)

mutual

/-- The entries up to the brace that closes a block, or up to the end. A block is told by the line
where it was opened. -/
def readEntries (opened : Option Nat) (ts : List Placed) :
    Except DescentFault (List Node × Left ts) :=
  match hskip : skipBreaks ts with
  | [] =>
    match opened with
    | some line => .error (.schema (.atLine line .unclosedBrace))
    | none => .ok ([], ⟨[], Nat.zero_le _⟩)
  | ⟨.closing, line⟩ :: rest =>
    match opened with
    | some _ => .ok ([], ⟨rest, Nat.le_of_lt (length_lt_of_skipBreaks hskip)⟩)
    | none => .error (.schema (.atLine line .unmatchedBrace))
  | ⟨.opening, line⟩ :: _ => .error (.schema (.atLine line .braceWithoutKey))
  | ⟨.lineBreak, _⟩ :: _ => .error .lineBreakLeft
  | ⟨.text key, line⟩ :: rest => do
    have hrest := length_lt_of_skipBreaks hskip
    let (node, ⟨behind, hbehind⟩) ← readEntry line key rest
    have hlt := Nat.lt_of_le_of_lt hbehind hrest
    let (nodes, ⟨left, hleft⟩) ← readEntries opened behind
    return (node :: nodes, ⟨left, Nat.le_trans hleft (Nat.le_of_lt hlt)⟩)
termination_by ts.length
decreasing_by
  · exact hrest
  · exact hlt

/-- The entry of a key: its data, and its block if one starts here or in a later line. -/
def readEntry (line : Nat) (key : String) (ts : List Placed) :
    Except DescentFault (Node × Left ts) := do
  let (data, ⟨rest, hrest⟩) ← readData line ts
  match hskip : skipBreaks rest with
  | ⟨.opening, opened⟩ :: inner =>
    have hinner := Nat.lt_of_lt_of_le (length_lt_of_skipBreaks hskip) hrest
    let (children, ⟨left, hleft⟩) ← readEntries (some opened) inner
    return (⟨line, key, data, children⟩, ⟨left, Nat.le_trans hleft (Nat.le_of_lt hinner)⟩)
  | _ => return (⟨line, key, data, []⟩, ⟨rest, hrest⟩)
termination_by ts.length
decreasing_by exact hinner

end

end Descent

/-- The entries that tokens make up, read by descent. -/
def descend (ts : List Placed) : Except DescentFault (List Node) := do
  let (nodes, _) ← Descent.readEntries none ts
  return nodes

end ZigbeeGateway.Info
