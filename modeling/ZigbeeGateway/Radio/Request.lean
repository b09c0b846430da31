-- Requests to the radio, and what their answers mean.
import ZigbeeGateway.Radio.Dispatcher
import ZigbeeGateway.Radio.Message
namespace ZigbeeGateway.Radio

/-- A request to a part of the radio. -/
structure Request where
  subsystem : Subsystem
  command : UInt8
  payload : Bytes
deriving DecidableEq, Repr

namespace Request

/-- The frame that carries a request. -/
def frame (r : Request) : Frame := ⟨.request, r.subsystem, r.command, r.payload⟩

/-- The key of the frame that answers a request. -/
def replyKey (r : Request) : Key := ⟨.response, r.subsystem, r.command⟩

/-- The payload of the frame that answers a request. An error report has its code in front. -/
def answer (r : Request) (f : Frame) : Except LinkError Bytes :=
  if f.subsystem = .rpcError then .error (.rpc (f.payload.headD 0) r.subsystem r.command)
  else .ok f.payload

/-- Asks whether the radio is there. -/
def ping : Request := ⟨.sys, 0x01, []⟩

/-- Starts the network after a delay in milliseconds. -/
def startUp (delay : UInt16) : Request := ⟨.zdo, 0x40, bytes16 delay⟩

/-- Makes an endpoint known. -/
def register (r : Registration) : Except LinkError Request := do
  return ⟨.af, 0x00, ← r.encode⟩

/-- Sends a message to a device. -/
def sendData (r : DataRequest) : Except LinkError Request := do
  return ⟨.af, 0x01, ← r.encode⟩

/-- Asks for the address of the device with a short address. -/
def lookUp (short : UInt16) : Request := ⟨.util, 0x41, bytes16 short⟩

end Request

/-- The capabilities in the answer to a ping. -/
def readPing : Bytes → Except LinkError UInt16
  | low :: high :: _ => .ok (number16 low high)
  | _ => .error .shortPing

/-- How the network started: 0 for a known one, 1 for a new one, other numbers if it did not. -/
def readStartUp : Bytes → Except LinkError UInt8
  | status :: _ => .ok status
  | [] => .error .emptyStartUp

/-- The status of an endpoint that is known already. -/
def duplicateEntry : UInt8 := 0xb8

/-- Whether an endpoint is known after its registration. -/
def readRegister (payload : Bytes) : Except LinkError Unit :=
  if payload.head? = some duplicateEntry then .ok () else checkStatus "AF_REGISTER" payload

/-- Whether the radio took a message to a device. -/
def readSendData (payload : Bytes) : Except LinkError Unit := checkStatus "AF_DATA_REQUEST" payload

/-- What somebody wants of the radio. -/
inductive Call where
  /-- Write a frame and wait for nothing. -/
  | send (f : Frame)
  | request (r : Request)
  /-- Wait for a frame that the radio sends by itself. -/
  | waitFor (key : Key)
  | ping
  | startUp (delay : UInt16)
  | register (r : Registration)
  | sendData (r : DataRequest)
  | lookUp (short : UInt16)
  /-- Close the line. -/
  | close
deriving Repr

/-- What a call comes to. -/
inductive Outcome where
  | nothing
  | bytes (bs : Bytes)
  | frame (f : Frame)
  | number (n : Nat)
  | address (n : UInt64)
deriving DecidableEq, Repr

namespace Call

/-- The request that a call makes, if it makes one. -/
def request? : Call → Except LinkError (Option Request)
  | request r => .ok (some r)
  | ping => .ok (some .ping)
  | startUp delay => .ok (some (.startUp delay))
  | register r => some <$> Request.register r
  | sendData r => some <$> Request.sendData r
  | lookUp short => .ok (some (.lookUp short))
  | send _ | waitFor _ | close => .ok none

/-- What the payload of the answer to a call means. -/
def read : Call → Bytes → Except LinkError Outcome
  | ping, bs => (readPing bs).map fun n => .number n.toNat
  | startUp _, bs => (readStartUp bs).map fun n => .number n.toNat
  | register _, bs => (readRegister bs).map fun _ => .nothing
  | sendData _, bs => (readSendData bs).map fun _ => .nothing
  | lookUp _, bs => (addressOf bs).map .address
  | _, bs => .ok (.bytes bs)

/-- What the frame that a call waited for means. -/
def finish (call : Call) (f : Frame) : Except LinkError Outcome := do
  match (← call.request?) with
  | none => return .frame f
  | some r => call.read (← r.answer f)

end Call

end ZigbeeGateway.Radio
