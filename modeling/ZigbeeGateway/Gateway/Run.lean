-- The gateway at work: it takes the messages of devices one at a time, finds out who sent
-- them, and gives what they have to the bus, and it sends the commands that come from there.
-- While it waits for the radio, further frames wait in its backlog.
import ZigbeeGateway.Gateway.AddressBook
import ZigbeeGateway.Gateway.Handler
import ZigbeeGateway.Radio.Client
namespace ZigbeeGateway

open Radio (Client Frame IncomingMessage Key Request Wait)

/-- Why the gateway stopped working. -/
inductive StopReason where
  | bus (e : GatewayError)
  | linkClosed
deriving Repr

/-- The wording of a reason. -/
def StopReason.message : StopReason → String
  | bus e => e.message
  | linkClosed => "Coordinator link closed"

/-- What the gateway needs an answer of the radio for. -/
inductive Errand where
  /-- The sender of a message is being looked up. -/
  | lookUp (m : IncomingMessage)
  /-- A command is being sent. -/
  | sendData
deriving DecidableEq, Repr

/-- An errand that the gateway waits for. It goes on one errand at a time. -/
structure Pending where
  errand : Errand
  wait : Wait
deriving DecidableEq, Repr

structure Gateway where
  client : Client
  /-- Which of the client's listeners the gateway is. -/
  listener : Nat
  handler : Handler
  bus : Mqtt.Bus
  qos : Mqtt.QoS
  book : AddressBook
  pending : Option Pending

namespace Gateway

/-- A gateway that starts to work. The bus must start. -/
def start (client : Client) (handler : Handler) (bus : Mqtt.Bus) (qos : Mqtt.QoS) :
    Except StopReason Gateway := do
  let bus ← bus.start.mapError .bus
  return {
    client := client.subscribe
    listener := client.dispatcher.listeners.length
    handler, bus, qos
    book := .empty
    pending := none }

/-- Gives a message from the device with an address to the bus. What cannot be given is dropped. -/
def deliver (g : Gateway) (address : UInt64) (m : IncomingMessage) : Gateway :=
  { g with bus := (g.handler.forward Mqtt.Bus.publish g.bus g.qos address m).2 }

/-- The key of frames that carry messages of devices. -/
def messageKey : Key := ⟨.notice, .af, 0x81⟩

/-- Goes on an errand with a request. One that cannot be written ends at once. -/
def goOn (g : Gateway) (errand : Errand) (r : Request) : Gateway :=
  match g.client.ask r with
  | (.ok wait, client) => { g with client, pending := some ⟨errand, wait⟩ }
  | (.error _, client) => { g with client }

/-- A message of a device has been let in. If its sender is not known, it has to be looked up. -/
def take (g : Gateway) (m : IncomingMessage) : Gateway :=
  match g.book.address? m.source with
  | some address => g.deliver address m
  | none => g.goOn (.lookUp m) (.lookUp m.source)

/-- A frame of the radio. Other frames than messages for the gateway are none of its business. -/
def hear (g : Gateway) (f : Frame) : Gateway :=
  if f.key ≠ messageKey then g
  else
    match IncomingMessage.decode f.payload with
    | .error _ => g
    | .ok m =>
      let (accepted, handler) := g.handler.accept m
      let g := { g with handler }
      if accepted then g.take m else g

/-- The address in the answer to a look-up. -/
def addressOf (m : IncomingMessage) (f : Frame) : Except Radio.LinkError UInt64 := do
  Radio.addressOf (← (Request.lookUp m.source).answer f)

/-- A command from the bus. One that cannot be understood, or whose device is not known, is
dropped. -/
def command (g : Gateway) (topic : String) (payload : Bytes) : Gateway :=
  match Topic.parseCommand? g.handler.first topic with
  | none => g
  | some subject =>
    match g.book.short? subject.address with
    | none => g
    | some short =>
      match g.handler.commandRequest subject payload short with
      | .error _ => g
      | .ok (r, handler) =>
        match Request.sendData r with
        | .error _ => { g with handler }
        | .ok request => { g with handler }.goOn .sendData request

/-- An errand is over. A message whose sender stays unknown is dropped. -/
def conclude (g : Gateway) (errand : Errand) (answer : Except Radio.LinkError Frame) : Gateway :=
  match errand with
  | .sendData => g
  | .lookUp m =>
    match answer.bind (addressOf m) with
    | .error _ => g
    | .ok address => { g with book := g.book.insert m.source address }.deliver address m

/-- Ends an errand whose waiting is over. -/
def poll (g : Gateway) : Gateway :=
  match g.pending with
  | none => g
  | some p =>
    match g.client.outcome? p.wait with
    | none => g
    | some answer =>
      { g with client := g.client.giveUp p.wait.ticket, pending := none }.conclude p.errand answer

/-- The next frame of the backlog, unless an errand goes on. -/
def nextFrame? (g : Gateway) : Option (Frame × Gateway) :=
  match g.pending, g.client.dispatcher.listeners[g.listener]? with
  | none, some backlog =>
    backlog.pop?.map fun (f, rest) =>
      let d := g.client.dispatcher
      (f, { g with client := { g.client with
        dispatcher := { d with listeners := d.listeners.set g.listener rest } } })
  | _, _ => none

/-- Works on at most `turns` frames, until an errand has to wait. -/
def work : (turns : Nat) → Gateway → Gateway
  | 0, g => g.poll
  | turns + 1, g =>
    match g.poll.nextFrame? with
    | none => g.poll
    | some (f, g) => work turns (g.hear f)

/-- Works on everything in the backlog that need not wait. -/
def workAll (g : Gateway) : Gateway :=
  work ((g.client.dispatcher.listeners[g.listener]?.map (·.frames.length)).getD 0) g

/-- Bytes of the radio have come in. -/
def receive (g : Gateway) (bs : Bytes) : Gateway :=
  { g with client := g.client.receive bs }.workAll

/-- Time passes. -/
def advance (g : Gateway) (milliseconds : Nat) : Gateway :=
  { g with client := g.client.advance milliseconds }.workAll

/-- Stops the bus and closes the line. -/
def shutDown (g : Gateway) : Gateway := { g with bus := g.bus.stop, client := g.client.close }

end Gateway

end ZigbeeGateway
