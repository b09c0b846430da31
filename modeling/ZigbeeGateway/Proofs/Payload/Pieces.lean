-- What the bytes of a message are for: which of them are floating point numbers, and which are
-- all the rest. The walk over a message follows its type as reading does.
import ZigbeeGateway.Payload.Read
namespace ZigbeeGateway

/-- A piece of a message. -/
inductive Piece where
  /-- The bytes of one floating point number. -/
  | float (layout : FloatLayout) (bs : Bytes)
  /-- Bytes that are no part of a floating point number. -/
  | plain (bs : Bytes)
deriving DecidableEq, Repr

namespace Piece

def bytes : Piece → Bytes
  | float _ bs => bs
  | plain bs => bs

/-- A NaN becomes the quiet one, and all else stays. -/
def quiet : Piece → Piece
  | float layout bs =>
    if layout.magnitude (LittleEndian.value bs) > layout.infinity then
      float layout (LittleEndian.bytes bs.length layout.quietNaN)
    else float layout bs
  | plain bs => plain bs

/-- The bytes of some pieces, one after the other. -/
def join (ps : List Piece) : Bytes := ps.flatMap bytes

end Piece

/-! ## Datatypes -/

/-- The layout of a floating point datatype. -/
def Datatype.layout? : Datatype → Option FloatLayout
  | semi => some .semi
  | single => some .single
  | double => some .double
  | _ => none

/-- The bytes that a reader takes, as one plain piece. -/
def Reader.plain {α : Type} (r : Reader α) : Reader (List Piece) := fun bs =>
  match r bs with
  | .error e => .error e
  | .ok (_, rest) => .ok ([.plain (bs.take (bs.length - rest.length))], rest)

/-- The piece of a value that holds no other values. -/
def Datatype.flatPieces (cluster : Option Cluster) (t : Datatype) : Reader (List Piece) :=
  match t.layout? with
  | some layout => (fun bs => [.float layout bs]) <$> Reader.take layout.width
  | none => (t.readFlat cluster).plain

/-- A tag and the pieces of the value behind it. -/
def taggedPieces (pieces : Datatype → Reader (List Piece)) : Reader (List Piece) := do
  let t ← readTag
  return .plain [t.tag] :: (← pieces t)

/-- A count and the pieces of that many items, none for the largest count. -/
def itemPieces (item : Reader (List Piece)) : Reader (List Piece) := do
  let count ← Reader.number 2
  let lead := Piece.plain (LittleEndian.bytes 2 count)
  if count = LittleEndian.allOnes 2 then return [lead]
  return lead :: (← Reader.times item count).flatten

/-- The pieces of a value of a datatype, with `room` for that many values inside each other. -/
def Datatype.pieces (cluster : Option Cluster) : (room : Nat) → Datatype → Reader (List Piece)
  | 0, sequence _ => throw .nestingTooDeep
  | room + 1, sequence _ => do
    let element ← readTag
    return .plain [element.tag] :: (← itemPieces (element.pieces cluster room))
  | 0, struct => throw .nestingTooDeep
  | room + 1, struct => itemPieces (taggedPieces (Datatype.pieces cluster room))
  | _, t => t.flatPieces cluster

/-! ## Payload types -/

namespace PayloadType

mutual

/-- The pieces of a value of a type, with `room` for that many values inside each other. -/
def pieces (cluster : Option Cluster) : (room : Nat) → PayloadType → Reader (List Piece)
  | room, variant => taggedPieces (Datatype.pieces cluster room)
  | room, scalar t => t.pieces cluster room
  | 0, object _ => throw .nestingTooDeep
  | room + 1, object properties => propertyPieces cluster room properties
  | 0, repeated _ => throw .nestingTooDeep
  | room + 1, repeated item =>
    List.flatten <$> Reader.untilEnd (item.pieces cluster room) (.emptyItem item)
  | room, errorOr inner => do
    let status ← Reader.byte
    if status ≠ 0 then return [.plain [status]]
    match room with
    | 0 => throw .nestingTooDeep
    | room + 1 => return .plain [status] :: (← inner.pieces cluster room)

/-- The pieces of properties one after the other. -/
def propertyPieces (cluster : Option Cluster) (room : Nat) :
    List (String × PayloadType) → Reader (List Piece)
  | [] => return []
  | (_, type) :: rest => do
    let ps ← type.pieces cluster room
    return ps ++ (← propertyPieces cluster room rest)

end

/-- The pieces that a message is made of, all of it. -/
def piecesOf (cluster : Option Cluster) (type : PayloadType) (bs : Bytes) :
    Except ReadError (List Piece) := do
  let (ps, rest) ← type.pieces cluster maxNesting bs
  if rest.isEmpty then return ps
  throw (.trailingBytes rest.length type)

end PayloadType

end ZigbeeGateway
