-- Who waits for which frame. Waiters of one key get their frames in the order in which they
-- came. One that gives up stays in its queue until a later registration or frame comes
-- across it.
import Std.Data.TreeMap
import ZigbeeGateway.Radio.Frame
namespace ZigbeeGateway.Radio

/-- A waiter, by its number. -/
abbrev Ticket := Nat

/-- What a waiter sees. -/
inductive Mailbox where
  | empty
  | holding (f : Frame)
  /-- No frame will come any more: the waiter was sent away, or its frame has been taken. -/
  | closed
deriving DecidableEq, Repr

structure Waiters where
  /-- The queues by key, the longest waiting in front. -/
  queues : List (Key × List Ticket)
  /-- The mailboxes of all waiters that have not given up. -/
  boxes : Std.TreeMap Ticket Mailbox
  /-- The number of the next waiter. -/
  next : Ticket

namespace Waiters

/-- Nobody waits. -/
def none : Waiters := ⟨[], ∅, 0⟩

/-- Whether a waiter still waits for a frame. -/
def isLive (w : Waiters) (t : Ticket) : Bool := w.boxes[t]? == some .empty

/-- How many waiters wait for a frame. -/
def count (w : Waiters) : Nat := (w.queues.flatMap (·.2)).countP w.isLive

/-- The queues without the waiters that do not wait any more, and without empty queues. -/
def sweep (w : Waiters) : Waiters :=
  let queues := w.queues.map fun (key, queue) => (key, queue.filter w.isLive)
  { w with queues := queues.filter fun (_, queue) => !queue.isEmpty }

/-- Queues with a waiter added to the one of a key. -/
def enqueue (key : Key) (t : Ticket) : List (Key × List Ticket) → List (Key × List Ticket)
  | [] => [(key, [t])]
  | (k, queue) :: rest =>
    if k = key then (k, queue ++ [t]) :: rest else (k, queue) :: enqueue key t rest

/-- A new waiter for a key. -/
def register (w : Waiters) (key : Key) : Ticket × Waiters :=
  let w := w.sweep
  (w.next, {
    queues := enqueue key w.next w.queues
    boxes := w.boxes.insert w.next .empty
    next := w.next + 1 })

/-- A waiter gives up. -/
def drop (w : Waiters) (t : Ticket) : Waiters := { w with boxes := w.boxes.erase t }

/-- A waiter takes what is in its mailbox. -/
def take (w : Waiters) (t : Ticket) : Option Mailbox × Waiters :=
  match w.boxes[t]? with
  | some (.holding f) => (some (.holding f), { w with boxes := w.boxes.insert t .closed })
  | box => (box, w)

/-- Queues in which the one of a key is another one; an empty one is left out. -/
def setQueue (key : Key) (queue : List Ticket) (queues : List (Key × List Ticket)) :
    List (Key × List Ticket) :=
  if queue.isEmpty then queues.filter (·.1 ≠ key)
  else queues.map fun entry => if entry.1 = key then (key, queue) else entry

/-- The queue of a key. -/
def queueOf (w : Waiters) (key : Key) : List Ticket :=
  ((w.queues.find? (·.1 = key)).map (·.2)).getD []

/-- Gives a frame to the first waiter of a key that still waits; those in front of it leave the
queue. Tells whether there was one. -/
def complete (w : Waiters) (key : Key) (f : Frame) : Bool × Waiters :=
  match (w.queueOf key).dropWhile (!w.isLive ·) with
  | [] => (false, { w with queues := setQueue key [] w.queues })
  | t :: queue =>
    (true, { w with
      queues := setQueue key queue w.queues
      boxes := w.boxes.insert t (.holding f) })

/-- Sends every waiter away. -/
def cancelAll (w : Waiters) : Waiters :=
  let waiting := (w.queues.flatMap (·.2)).filter w.isLive
  { w with
    queues := []
    boxes := waiting.foldl (fun boxes t => boxes.insert t .closed) w.boxes }

end Waiters

end ZigbeeGateway.Radio
