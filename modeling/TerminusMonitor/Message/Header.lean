import TerminusMonitor.Message.Fault

/-!
The three-byte header of every message.

| byte | bits                                                                  |
|------|-----------------------------------------------------------------------|
| 0    | request (7), datagram (6), reserved (5), instance ID (4:0)            |
| 1    | header version (7:6), which is 0, and message type (5:0)              |
| 2    | command code                                                          |
-/

namespace TerminusMonitor

/-- The length of a header. -/
def headerLength : Nat := 3

/-- The largest instance ID that a header can hold. -/
def maxInstanceId : UInt8 := 0x1f

/-- The largest message type that a header can hold. -/
def maxMessageType : UInt8 := 0x3f

/-- The header of a message. -/
structure Header where
  /-- Whether the message is a request and not a response. -/
  request : Bool
  /-- Whether a request wants no response. -/
  datagram : Bool
  instanceId : UInt8
  type : UInt8
  command : UInt8
deriving DecidableEq, Repr

namespace Header

/-- Whether instance ID and type fit their bits. -/
def fits (h : Header) : Bool := h.instanceId ≤ maxInstanceId && h.type ≤ maxMessageType

/-- The first byte of a header. -/
def firstByte (h : Header) : UInt8 :=
  h.instanceId ||| (if h.request then 0x80 else 0) ||| (if h.datagram then 0x40 else 0)

/-- The bytes of a header. -/
def toBytes (h : Header) : Except MessageFault (List UInt8) :=
  if h.fits then .ok [h.firstByte, h.type, h.command] else .error .unfitHeader

/-- Writes a header over the start of a buffer, which stays as it is when the
header does not fit its bits or the buffer. The number of bytes written, and the
buffer afterwards. -/
def write (h : Header) (buffer : List UInt8) : Except MessageFault Nat × List UInt8 :=
  match h.toBytes with
  | .error fault => (.error fault, buffer)
  | .ok bytes =>
    if buffer.length < bytes.length then (.error .noRoom, buffer)
    else (.ok bytes.length, bytes ++ buffer.drop bytes.length)

/-- Reads the header at the start of a message. -/
def ofBytes : List UInt8 → Except MessageFault Header
  | first :: second :: third :: _ =>
    if second &&& 0xc0 = 0 then
      .ok {
        request := first &&& 0x80 != 0
        datagram := first &&& 0x40 != 0
        instanceId := first &&& maxInstanceId
        type := second &&& maxMessageType
        command := third }
    else .error (.headerVersion second)
  | _ => .error .short

end Header

end TerminusMonitor
