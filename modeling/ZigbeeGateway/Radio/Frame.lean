-- Frames on the serial line to the radio: a start byte, the length of the payload, two
-- command bytes, the payload, and the exclusive or of everything after the start byte.
import ZigbeeGateway.Bytes
import ZigbeeGateway.Text.Wording
namespace ZigbeeGateway.Radio

/-- What a frame is part of. -/
inductive Kind where
  | poll
  /-- A request that gets exactly one response. -/
  | request
  /-- A message that gets no response. -/
  | notice
  | response
deriving DecidableEq, Repr

/-- The part of the radio that a frame is for or from. -/
inductive Subsystem where
  | rpcError
  | sys
  | mac
  | nwk
  | af
  | zdo
  | sapi
  | util
  | debug
  | app
deriving DecidableEq, Repr

namespace Kind

def all : List Kind := [poll, request, notice, response]

def code : Kind → UInt8
  | poll => 0
  | request => 2
  | notice => 4
  | response => 6

def ofCode? (code : UInt8) : Option Kind := all.find? (·.code == code)

/-- The name of a kind in messages. -/
def name : Kind → String
  | poll => "Poll"
  | request => "Sreq"
  | notice => "Areq"
  | response => "Srsp"

theorem ofCode?_code : ∀ k : Kind, ofCode? k.code = some k
  | poll | request | notice | response => rfl

end Kind

namespace Subsystem

def all : List Subsystem := [rpcError, sys, mac, nwk, af, zdo, sapi, util, debug, app]

def code : Subsystem → UInt8
  | rpcError => 0
  | sys => 1
  | mac => 2
  | nwk => 3
  | af => 4
  | zdo => 5
  | sapi => 6
  | util => 7
  | debug => 8
  | app => 9

def ofCode? (code : UInt8) : Option Subsystem := all.find? (·.code == code)

/-- The name of a subsystem in messages. -/
def name : Subsystem → String
  | rpcError => "RpcError"
  | sys => "Sys"
  | mac => "Mac"
  | nwk => "Nwk"
  | af => "Af"
  | zdo => "Zdo"
  | sapi => "Sapi"
  | util => "Util"
  | debug => "Debug"
  | app => "App"

theorem ofCode?_code : ∀ s : Subsystem, ofCode? s.code = some s
  | rpcError | sys | mac | nwk | af | zdo | sapi | util | debug | app => rfl

end Subsystem

/-- What tells frames of different meaning apart. -/
structure Key where
  kind : Kind
  subsystem : Subsystem
  command : UInt8
deriving DecidableEq, Repr

structure Frame where
  kind : Kind
  subsystem : Subsystem
  command : UInt8
  payload : Bytes
deriving DecidableEq, Repr

/-- Why talking to the radio failed. -/
inductive LinkError where
  | connectionClosed
  | sendFailed (reason : String)
  | timeout
  | notConnected
  | checksum (expected actual : UInt8)
  | payloadTooLarge (length : Nat)
  | unknownCommand (byte : UInt8)
  | tooShort (what : String) (needed present : Nat)
  | trailingBytes (what : String) (count : Nat)
  | tooManyClusters (limit count : Nat)
  | failedStatus (what : String) (status : UInt8)
  | shortPing
  | emptyStartUp
  /-- The radio could not carry out a request. -/
  | rpc (code : UInt8) (subsystem : Subsystem) (command : UInt8)
deriving DecidableEq, Repr

namespace LinkError

/-- The wording of an error that the radio's answers or messages show; none of the others. -/
def protocol? : LinkError → Option String
  | unknownCommand byte => some ("unknown cmd0 " ++ inHex 2 byte.toNat)
  | tooShort what needed present =>
    some (what ++ " too short: need " ++ inDecimal needed ++ " bytes, have " ++ inDecimal present)
  | trailingBytes what count =>
    some (what ++ " has " ++ inDecimal count ++ " unexpected trailing bytes")
  | tooManyClusters limit count =>
    some ("AF_REGISTER takes at most " ++ inDecimal limit ++ " clusters per direction, got " ++
      inDecimal count)
  | failedStatus what status => some (what ++ " failed with status " ++ inHex 2 status.toNat)
  | shortPing => some "SYS_PING reply too short"
  | emptyStartUp => some "ZDO_STARTUP_FROM_APP reply empty"
  | rpc code subsystem command =>
    some ("RPC error " ++ inHex 2 code.toNat ++ " for " ++ subsystem.name ++ " " ++
      inHex 2 command.toNat)
  | _ => none

/-- The wording of an error. -/
def message (e : LinkError) : String :=
  match e with
  | connectionClosed => "connection closed"
  | sendFailed reason => "send failed: " ++ reason
  | timeout => "timeout"
  | notConnected => "not connected"
  | checksum expected actual =>
    "checksum mismatch: expected " ++ inHex 2 expected.toNat ++ ", got " ++ inHex 2 actual.toNat
  | payloadTooLarge length => "payload too large: " ++ inDecimal length ++ " bytes (max 255)"
  | e => "protocol error: " ++ e.protocol?.getD ""

end LinkError

/-- The byte that starts a frame. -/
def startByte : UInt8 := 0xfe

/-- The exclusive or of some bytes. -/
def checksum (bs : Bytes) : UInt8 := bs.foldl (· ^^^ ·) 0

namespace Frame

def key (f : Frame) : Key := ⟨f.kind, f.subsystem, f.command⟩

/-- The first command byte: the kind above the subsystem. -/
def commandByte (f : Frame) : UInt8 := f.kind.code * 16 + f.subsystem.code

/-- The bytes between the start byte and the checksum. -/
def body (f : Frame) : Bytes :=
  UInt8.ofNat f.payload.length :: f.commandByte :: f.command :: f.payload

/-- The bytes of a frame. The payload may have at most 255. -/
def encode (f : Frame) : Except LinkError Bytes :=
  if f.payload.length ≤ 255 then .ok (startByte :: f.body ++ [checksum f.body])
  else .error (.payloadTooLarge f.payload.length)

/-- A frame in one line of text. -/
def summary (f : Frame) : String :=
  f.kind.name ++ " " ++ f.subsystem.name ++ " " ++ inHex 2 f.command.toNat ++ " (" ++
    inDecimal f.payload.length ++ " bytes)"

/-- The frame with two command bytes and a payload. -/
def ofParts (commandByte command : UInt8) (payload : Bytes) : Except LinkError Frame :=
  match Kind.ofCode? (commandByte / 16), Subsystem.ofCode? (commandByte % 16) with
  | some kind, some subsystem => .ok ⟨kind, subsystem, command, payload⟩
  | _, _ => .error (.unknownCommand commandByte)

end Frame

end ZigbeeGateway.Radio
