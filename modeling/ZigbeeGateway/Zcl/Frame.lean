-- Frames of the Zigbee cluster library: a header that says which command of whom the frame
-- carries, and the bytes of the payload.
import ZigbeeGateway.Payload.ReadError
import ZigbeeGateway.Bytes
namespace ZigbeeGateway.Zcl

/-- Whether a command belongs to every cluster or to the one that the frame is for. -/
inductive FrameType where
  | global
  | clusterSpecific
deriving DecidableEq, Repr

inductive Direction where
  | clientToServer
  | serverToClient
deriving DecidableEq, Repr

structure Header where
  frameType : FrameType
  manufacturer : Option UInt16
  direction : Direction
  disableDefaultResponse : Bool
  /-- The top three bits of the control byte, of which only the lowest three count. -/
  reserved : UInt8
  transaction : UInt8
  command : UInt8
deriving DecidableEq, Repr

structure Frame where
  header : Header
  payload : Bytes
deriving DecidableEq, Repr

namespace Header

/-- A header with everything optional left out, from a client to a server. -/
def plain (frameType : FrameType) (transaction command : UInt8) : Header :=
  ⟨frameType, none, .clientToServer, false, 0, transaction, command⟩

/-- The control byte: frame type in the lowest bits, then a flag each for a manufacturer code, the
direction and no default response, and the reserved bits on top. -/
def control (h : Header) : UInt8 :=
  (match h.frameType with | .global => 0 | .clusterSpecific => 1) +
  (if h.manufacturer.isSome then 4 else 0) +
  (match h.direction with | .clientToServer => 0 | .serverToClient => 8) +
  (if h.disableDefaultResponse then 16 else 0) +
  h.reserved % 8 * 32

/-- How many bytes a header takes. -/
def size (h : Header) : Nat := if h.manufacturer.isSome then 5 else 3

/-- The bytes of a header. -/
def encode (h : Header) : Bytes :=
  h.control :: (h.manufacturer.elim [] fun code => LittleEndian.bytes 2 code.toNat) ++
    [h.transaction, h.command]

/-- The header with a control byte, except that its frame type may be a reserved one. -/
def ofControl (control : UInt8) (manufacturer : Option UInt16) (transaction command : UInt8) :
    Except ReadError Header :=
  let header (frameType : FrameType) : Header :=
    { frameType, manufacturer, transaction, command
      direction := if control.toNat.testBit 3 then .serverToClient else .clientToServer
      disableDefaultResponse := control.toNat.testBit 4
      reserved := control / 32 }
  match control.toNat % 4 with
  | 0 => .ok (header .global)
  | 1 => .ok (header .clusterSpecific)
  | _ => .error (.reservedFrameType (control % 4))

end Header

namespace Frame

/-- The bytes of a frame. -/
def encode (f : Frame) : Bytes := f.header.encode ++ f.payload

/-- The frame that some bytes are. A reserved frame type is reported before a header that is too
short. -/
def decode (bs : Bytes) : Except ReadError Frame :=
  match bs with
  | [] => .error (.bufferTooSmall 3 0)
  | control :: rest => do
    discard (Header.ofControl control none 0 0)
    if control.toNat.testBit 2 then
      match rest with
      | low :: high :: transaction :: command :: payload =>
        let code := UInt16.ofNat (LittleEndian.value [low, high])
        return ⟨← Header.ofControl control (some code) transaction command, payload⟩
      | _ => throw (.bufferTooSmall 5 bs.length)
    else
      match rest with
      | transaction :: command :: payload =>
        return ⟨← Header.ofControl control none transaction command, payload⟩
      | _ => throw (.bufferTooSmall 3 bs.length)

end Frame

end ZigbeeGateway.Zcl
