-- A session with the radio: calls start, and end when their answers come, when their time
-- is over, when the stream ends, or when they are given up. Writing a frame takes a while, and
-- anything may happen in between.
import ZigbeeGateway.Radio.Client
namespace ZigbeeGateway.Radio

/-- How far a call is. -/
inductive Phase where
  /-- The line is writing its frame. If it has to wait afterwards, its waiter is there already, so
  that no answer is too fast for it. -/
  | writing (bs : Bytes) (ticket : Option Ticket)
  | waiting (wait : Wait)
deriving DecidableEq, Repr

/-- The waiter of a call, if it has one. -/
def Phase.ticket? : Phase → Option Ticket
  | writing _ ticket => ticket
  | waiting wait => some wait.ticket

/-- A call that has not ended, with the name it was given. -/
structure Running where
  name : String
  call : Call
  phase : Phase

/-- The result of a call that has ended. -/
structure Ended where
  name : String
  result : Except LinkError Outcome

/-- What happens to a session. -/
inductive Event where
  | start (name : String) (call : Call)
  /-- The line is done with the frames of the calls of a name. -/
  | flushed (name : String)
  | abort (name : String)
  | data (bs : Bytes)
  /-- A fault of the line that changes nothing. -/
  | fault
  /-- The stream from the radio ends. -/
  | ended
  | connected (yes : Bool)
  | failing (reason : Option String)
  | advance (milliseconds : Nat)

structure Session where
  client : Client
  running : List Running
  /-- The calls that have ended, the newest in front. -/
  ended : List Ended

namespace Session

/-- A session in which nothing has happened. One listener hears everything. -/
def start (timeout : Nat) : Session := ⟨(Client.start timeout).subscribe, [], []⟩

/-- A call ends. -/
def finish (s : Session) (name : String) (result : Except LinkError Outcome) : Session :=
  { s with ended := ⟨name, result⟩ :: s.ended }

/-- A call goes on. -/
def keep (s : Session) (r : Running) : Session := { s with running := s.running ++ [r] }

/-- The waiter of a call, if it has one, stops waiting. -/
def release (s : Session) (ticket : Option Ticket) : Session :=
  { s with client := ticket.elim s.client s.client.giveUp }

/-- The line starts writing the frame of a call. -/
def startWriting (s : Session) (name : String) (call : Call) (f : Frame) (ticket : Option Ticket) :
    Session :=
  match s.client.toWrite f with
  | .ok bs => s.keep ⟨name, call, .writing bs ticket⟩
  | .error e => (s.release ticket).finish name (.error e)

/-- A call starts. -/
def begin (s : Session) (name : String) (call : Call) : Session :=
  match call.request? with
  | .error e => s.finish name (.error e)
  | .ok (some r) =>
    let (ticket, client) := s.client.register r.replyKey
    { s with client }.startWriting name call r.frame (some ticket)
  | .ok none =>
    match call with
    | .send f => s.startWriting name call f none
    | .waitFor key =>
      let (wait, client) := s.client.await key
      { s with client }.keep ⟨name, call, .waiting wait⟩
    | _ => { s with client := s.client.close }.finish name (.ok .nothing)

/-- The line is done with the bytes of a call, which waits from now on or has ended. -/
def written (s : Session) (r : Running) (bs : Bytes) (ticket : Option Ticket) : Session :=
  match s.client.writeBytes bs, ticket with
  | (.error e, client), _ => ({ s with client }.release ticket).finish r.name (.error e)
  | (.ok (), client), none => { s with client }.finish r.name (.ok .nothing)
  | (.ok (), client), some t =>
    { s with client }.keep { r with phase := .waiting (client.waitOf t) }

/-- The line is done with the frame of a call if the call has the name. -/
def flushOne (name : String) (s : Session) (r : Running) : Session :=
  match r.phase with
  | .writing bs ticket => if r.name = name then s.written r bs ticket else s.keep r
  | .waiting _ => s.keep r

/-- The line is done with the frames of the calls of a name. -/
def flush (s : Session) (name : String) : Session :=
  s.running.foldl (flushOne name) { s with running := [] }

/-- Ends a call if its waiting is over. -/
def poll (s : Session) (r : Running) : Session :=
  match r.phase with
  | .writing .. => s.keep r
  | .waiting wait =>
    match s.client.outcome? wait with
    | none => s.keep r
    | some frame =>
      { s with client := s.client.giveUp wait.ticket }.finish r.name (frame.bind r.call.finish)

/-- Ends all calls whose waiting is over. -/
def pollAll (s : Session) : Session := s.running.foldl poll { s with running := [] }

/-- Gives up the calls of a name. -/
def abort (s : Session) (name : String) : Session :=
  let (gone, running) := s.running.partition (·.name = name)
  gone.foldl (fun s r => s.release r.phase.ticket?) { s with running }

/-- What an event changes at once. -/
def apply (s : Session) : Event → Session
  | .start name call => s.begin name call
  | .flushed name => s.flush name
  | .abort name => s.abort name
  | .data bs => { s with client := s.client.receive bs }
  | .fault => s
  | .ended => { s with client := s.client.endReading }
  | .connected yes => { s with client := { s.client with connected := yes } }
  | .failing reason => { s with client := { s.client with failing := reason } }
  | .advance milliseconds => { s with client := s.client.advance milliseconds }

/-- An event and all that follows from it. -/
def step (s : Session) (event : Event) : Session := (s.apply event).pollAll

end Session

end ZigbeeGateway.Radio
