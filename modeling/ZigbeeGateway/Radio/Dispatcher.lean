-- Incoming frames go to the waiter that they answer, if there is one, and to everyone who
-- listens.
import ZigbeeGateway.Radio.Waiters
namespace ZigbeeGateway.Radio

/-- The frames that a listener has not looked at yet. Of more than the capacity the oldest are
lost. -/
structure Backlog where
  capacity : Nat
  /-- The newest frame in front. -/
  frames : List Frame
  lost : Nat
deriving Repr

namespace Backlog

/-- The backlog of a new listener. -/
def empty (capacity : Nat) : Backlog := ⟨capacity, [], 0⟩

/-- One more frame. -/
def push (b : Backlog) (f : Frame) : Backlog :=
  let frames := f :: b.frames
  { b with
    frames := frames.take b.capacity
    lost := b.lost + (frames.length - b.capacity) }

/-- The frames, oldest first. -/
def toList (b : Backlog) : List Frame := b.frames.reverse

/-- The backlog after the listener has looked at everything. -/
def clear (b : Backlog) : Backlog := empty b.capacity

/-- The oldest frame, and the backlog without it and without the count of lost frames. -/
def pop? (b : Backlog) : Option (Frame × Backlog) :=
  match b.toList with
  | [] => none
  | f :: rest => some (f, { b with frames := rest.reverse, lost := 0 })

end Backlog

/-- The waiters, and the listeners in the order in which they came. -/
structure Dispatcher where
  waiters : Waiters
  listeners : List Backlog
  /-- How many frames each listener may be behind. -/
  capacity : Nat

namespace Dispatcher

/-- How many frames a listener may be behind unless it is said otherwise. -/
def defaultCapacity : Nat := 256

/-- Nobody waits or listens. -/
def empty (capacity : Nat) : Dispatcher := ⟨.none, [], capacity⟩

/-- A new listener hears every frame from now on. -/
def subscribe (d : Dispatcher) : Dispatcher :=
  { d with listeners := d.listeners ++ [.empty d.capacity] }

/-- Everything that a listener has not looked at yet; it looks at it now. -/
def listen (d : Dispatcher) (listener : Nat) : Option Backlog × Dispatcher :=
  (d.listeners[listener]?, { d with listeners := d.listeners.modify listener Backlog.clear })

/-- The key of the request that a frame answers. An error report names the request that failed. -/
def replyKey (f : Frame) : Key :=
  match f.kind, f.subsystem, f.payload with
  | .response, .rpcError, _ :: commandByte :: command :: _ =>
    match Subsystem.ofCode? (commandByte % 16) with
    | some subsystem => ⟨.response, subsystem, command⟩
    | none => f.key
  | _, _, _ => f.key

/-- Passes a frame on. Tells whether a waiter got it. -/
def dispatch (d : Dispatcher) (f : Frame) : Bool × Dispatcher :=
  let (taken, waiters) := d.waiters.complete (replyKey f) f
  (taken, { d with waiters, listeners := d.listeners.map (·.push f) })

end Dispatcher

end ZigbeeGateway.Radio
