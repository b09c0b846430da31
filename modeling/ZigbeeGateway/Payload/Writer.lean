-- Writing to the end of a buffer. A writer that fails leaves what it had written up to
-- then; `onto` takes that back.
import ZigbeeGateway.Payload.WriteError
namespace ZigbeeGateway

/-- Writes to the end of a buffer, or fails on the way. -/
abbrev Writer := ExceptT WriteError (StateM (Array UInt8)) Unit

namespace Writer

/-- Writes some bytes. -/
def bytes (bs : Bytes) : Writer := modify fun (out : Array UInt8) => out ++ bs

/-- Writes a number in `width` bytes. -/
def number (width n : Nat) : Writer := bytes (LittleEndian.bytes width n)

/-- Writes one thing after the other. -/
def each {α : Type} (item : α → Writer) : List α → Writer
  | [] => pure ()
  | x :: xs => do
    item x
    each item xs

/-- Writes a byte, if there is one. -/
def oneByte : Except WriteError UInt8 → Writer
  | .ok b => bytes [b]
  | .error e => throw e

/-- Writes a byte for each thing, up to the first one that has none. -/
def eachByte {α : Type} (byte : α → Except WriteError UInt8) : List α → Writer :=
  each fun x => oneByte (byte x)

/-- Names the field that an error lies in. -/
def inside (name : String) (w : Writer) : Writer := ExceptT.adapt (WriteError.inside name) w

/-- Writes onto a buffer. After a failure the buffer is what it was before. -/
def onto (w : Writer) (out : Array UInt8) : Except WriteError Unit × Array UInt8 :=
  match w.run.run out with
  | (.ok (), written) => (.ok (), written)
  | (.error e, written) => (.error e, written.take out.size)

/-- The bytes that are written onto an empty buffer. -/
def toBytes (w : Writer) : Except WriteError Bytes :=
  match w.run.run #[] with
  | (.ok (), written) => .ok written.toList
  | (.error e, _) => .error e

end Writer

end ZigbeeGateway
