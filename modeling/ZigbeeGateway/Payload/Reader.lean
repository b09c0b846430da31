-- Reading from the front of a byte string. A reader either takes some bytes and gives a
-- result, or refuses the bytes.
import ZigbeeGateway.Payload.ReadError
import ZigbeeGateway.Value
namespace ZigbeeGateway

/-- Reads a result from the front of some bytes and leaves the rest. -/
abbrev Reader (α : Type) := StateT Bytes (Except ReadError) α

namespace Reader

/-- The next `count` bytes. -/
def take (count : Nat) : Reader Bytes := fun buf =>
  let head := buf.take count
  if head.length < count then .error (.bufferTooSmall count buf.length)
  else .ok (head, buf.drop count)

/-- A number of `width` bytes. -/
def number (width : Nat) : Reader Nat := LittleEndian.value <$> take width

/-- Bytes at the front are taken whatever follows them. -/
theorem take_append (bs rest : Bytes) : take bs.length (bs ++ rest) = .ok (bs, rest) := by
  simp [take]

/-- A number at the front is read whatever follows it. -/
theorem number_append (width n : Nat) (rest : Bytes) :
    number width (LittleEndian.bytes width n ++ rest) =
      .ok (n % LittleEndian.limit width, rest) := by
  have h := take_append (LittleEndian.bytes width n) rest
  rw [LittleEndian.length_bytes] at h
  simp only [number, Functor.map, StateT.map, h, ← LittleEndian.value_bytes]
  rfl

/-- One byte. -/
def byte : Reader UInt8 := UInt8.ofNat <$> number 1

/-- The results of one reader used `count` times, after those before them in reverse. -/
def timesFrom {α : Type} (item : Reader α) (before : List α) : (count : Nat) → Reader (List α)
  | 0 => return before.reverse
  | count + 1 => do
    let x ← item
    timesFrom item (x :: before) count

/-- The results of one reader used `count` times. -/
def times {α : Type} (item : Reader α) (count : Nat) : Reader (List α) := timesFrom item [] count

/-- The results of one reader used until no bytes are left, after those before them in reverse. A
result that took no bytes is refused. -/
def untilEndFrom {α : Type} (item : Reader α) (stuck : ReadError) (before : List α) (buf : Bytes) :
    Except ReadError (List α × Bytes) :=
  if buf.isEmpty then .ok (before.reverse, [])
  else
    match item buf with
    | .error e => .error e
    | .ok (x, rest) =>
      if _h : rest.length < buf.length then untilEndFrom item stuck (x :: before) rest
      else .error stuck
termination_by buf.length

/-- The results of one reader used until no bytes are left. -/
def untilEnd {α : Type} (item : Reader α) (stuck : ReadError) : Reader (List α) :=
  untilEndFrom item stuck []

end Reader

end ZigbeeGateway
