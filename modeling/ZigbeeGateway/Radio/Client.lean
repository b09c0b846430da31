-- The gateway's end of the line to the radio: it writes frames, reads the stream that comes
-- back, and keeps the time until which each request waits.
import ZigbeeGateway.Radio.Request
import ZigbeeGateway.Radio.Stream
namespace ZigbeeGateway.Radio

/-- The state of the line and of everything that waits on it. Times are in milliseconds. -/
structure Client where
  timeout : Nat
  now : Nat
  dispatcher : Dispatcher
  /-- The bytes of a frame that is not complete yet. -/
  held : Bytes
  /-- Whether the stream from the radio is still read. -/
  reading : Bool
  connected : Bool
  /-- Why writing fails at present, if it does. -/
  failing : Option String
  /-- How often the line was closed. -/
  closed : Nat
  /-- What was written, the newest in front. -/
  written : List Bytes

/-- Somebody waiting for a frame until a deadline. -/
structure Wait where
  ticket : Ticket
  deadline : Nat
deriving DecidableEq, Repr

namespace Client

/-- A fresh line. -/
def start (timeout : Nat) : Client where
  timeout
  now := 0
  dispatcher := .empty Dispatcher.defaultCapacity
  held := []
  reading := true
  connected := true
  failing := none
  closed := 0
  written := []

/-- One more listener hears all frames from now on. -/
def subscribe (c : Client) : Client := { c with dispatcher := c.dispatcher.subscribe }

/-- Time passes. -/
def advance (c : Client) (milliseconds : Nat) : Client := { c with now := c.now + milliseconds }

/-! ## The radio's side -/

/-- A frame or a damaged frame has come in. -/
def hear (c : Client) : Except LinkError Frame → Client
  | .ok f => { c with dispatcher := (c.dispatcher.dispatch f).2 }
  | .error _ => c

/-- Bytes have come in. Nobody hears them once reading has ended. -/
def receive (c : Client) (bs : Bytes) : Client :=
  if c.reading then
    let (frames, held) := Stream.push c.held bs
    { frames.foldl hear c with held }
  else c

/-- The stream from the radio has ended; nobody need wait any more. -/
def endReading (c : Client) : Client :=
  if c.reading then
    { c with
      reading := false
      dispatcher := { c.dispatcher with waiters := c.dispatcher.waiters.cancelAll } }
  else c

/-! ## The gateway's side -/

/-- The bytes of a frame that is to be written, if the line takes frames. -/
def toWrite (c : Client) (f : Frame) : Except LinkError Bytes :=
  if c.connected then f.encode else .error .notConnected

/-- The line writes bytes, or fails to. -/
def writeBytes (c : Client) (bs : Bytes) : Except LinkError Unit × Client :=
  match c.failing with
  | some reason => (.error (.sendFailed reason), c)
  | none => (.ok (), { c with written := bs :: c.written })

/-- Writes a frame. -/
def write (c : Client) (f : Frame) : Except LinkError Unit × Client :=
  match c.toWrite f with
  | .error e => (.error e, c)
  | .ok bs => c.writeBytes bs

/-- A new waiter for a key. -/
def register (c : Client) (key : Key) : Ticket × Client :=
  let (ticket, waiters) := c.dispatcher.waiters.register key
  (ticket, { c with dispatcher := { c.dispatcher with waiters } })

/-- The waiting of a waiter whose time starts now. -/
def waitOf (c : Client) (ticket : Ticket) : Wait := ⟨ticket, c.now + c.timeout⟩

/-- Starts waiting for a frame. -/
def await (c : Client) (key : Key) : Wait × Client :=
  let (ticket, c) := c.register key
  (c.waitOf ticket, c)

/-- A waiter stops waiting. -/
def giveUp (c : Client) (ticket : Ticket) : Client :=
  { c with dispatcher := { c.dispatcher with waiters := c.dispatcher.waiters.drop ticket } }

/-- Writes a request and starts waiting for its answer. The waiter is there before anything is
written, so that no answer is too fast for it. -/
def ask (c : Client) (r : Request) : Except LinkError Wait × Client :=
  let (ticket, c) := c.register r.replyKey
  match c.write r.frame with
  | (.ok (), c) => (.ok (c.waitOf ticket), c)
  | (.error e, c) => (.error e, c.giveUp ticket)

/-- What the waiting has come to by now, if it is over. -/
def outcome? (c : Client) (w : Wait) : Option (Except LinkError Frame) :=
  match c.dispatcher.waiters.boxes[w.ticket]? with
  | some (.holding f) => some (.ok f)
  | some .empty => if w.deadline ≤ c.now then some (.error .timeout) else none
  | some .closed | none => some (.error .connectionClosed)

/-- Closes the line. -/
def close (c : Client) : Client := { c with connected := false, closed := c.closed + 1 }

end Client

end ZigbeeGateway.Radio
