import TerminusMonitor.Code.Completion
import TerminusMonitor.Message.Header

/-!
Requests and responses: a header, for a response the completion code, and the
payload that the command defines.
-/

namespace TerminusMonitor

/-- The largest message that peers exchange. -/
def maxMessageSize : Nat := 1024

/-- The length of a response without payload. -/
def responseHeaderLength : Nat := headerLength + 1

/-- A response. -/
structure Response where
  instanceId : UInt8
  type : UInt8
  command : UInt8
  /-- The completion code. -/
  completion : UInt8
  payload : List UInt8
deriving DecidableEq, Repr

/-- A request. -/
structure Request where
  instanceId : UInt8
  type : UInt8
  command : UInt8
  payload : List UInt8
deriving DecidableEq, Repr

/-- A completion code as a result: any but success is a refusal. -/
def accepted (completion : UInt8) : Except MessageFault Unit :=
  if completion = success then .ok () else .error (.refused completion)

namespace Response

/-- The header of a response. -/
def header (r : Response) : Header :=
  { request := false, datagram := false, instanceId := r.instanceId, type := r.type
    command := r.command }

/-- The bytes of a response. -/
def toBytes (r : Response) : Except MessageFault (List UInt8) := do
  let header ← r.header.toBytes
  return header ++ r.completion :: r.payload

/-- Reads a response. -/
def ofBytes (bytes : List UInt8) : Except MessageFault Response := do
  let header ← Header.ofBytes bytes
  if header.request then throw .notResponse
  match bytes.drop headerLength with
  | [] => throw .short
  | completion :: payload =>
    return { instanceId := header.instanceId, type := header.type, command := header.command
             completion, payload }

end Response

namespace Request

/-- A request whose instance ID is still to be assigned. -/
def ofPayload (type command : UInt8) (payload : List UInt8) : Request :=
  { instanceId := 0, type, command, payload }

/-- The header of a request. -/
def header (r : Request) : Header :=
  { request := true, datagram := false, instanceId := r.instanceId, type := r.type
    command := r.command }

/-- The bytes of a request. -/
def toBytes (r : Request) : Except MessageFault (List UInt8) := do
  let header ← r.header.toBytes
  return header ++ r.payload

/-- Reads a request. -/
def ofBytes (bytes : List UInt8) : Except MessageFault Request := do
  let header ← Header.ofBytes bytes
  if !header.request then throw .notRequest
  return { instanceId := header.instanceId, type := header.type, command := header.command
           payload := bytes.drop headerLength }

/-- The response to a request with a completion code and no payload. -/
def reply (r : Request) (completion : UInt8 := success) : Response :=
  { instanceId := r.instanceId, type := r.type, command := r.command, completion, payload := [] }

end Request

end TerminusMonitor
