import TerminusMonitor.Code.Completion
import TerminusMonitor.Message.Basic
import TerminusMonitor.Wire.Field

/-!
Message bodies as a whole.

A body is written only if its fields agree with each other, and into a buffer
only if all of it fits: a failure leaves the buffer as it was. A body is read
only if its bytes are all of the message and nothing but it.
-/

namespace TerminusMonitor

/-- Message bodies: their fields in order, and what the fields have to agree on. -/
class Body (α : Type) where
  /-- The length of the shortest body. -/
  shortest : Nat
  put : α → List UInt8
  get : Reader α
  /-- What the layout alone does not tell. -/
  check : α → Except MessageFault Unit := fun _ => .ok ()

namespace Body

variable {α : Type} [Body α]

/-- The bytes of a body. -/
def toBytes (m : α) : Except MessageFault (List UInt8) := do
  check m
  return put m

/-- Writes a body over the start of a buffer. The number of bytes written, and
the buffer afterwards. -/
def write (m : α) (buffer : List UInt8) : Except MessageFault Nat × List UInt8 :=
  match toBytes m with
  | .error fault => (.error fault, buffer)
  | .ok bytes =>
    if buffer.length < bytes.length then (.error .noRoom, buffer)
    else (.ok bytes.length, bytes ++ buffer.drop bytes.length)

/-- Writes a whole platform request over the start of a buffer. The number of
bytes written, and the buffer afterwards. -/
def writeRequest (instanceId : UInt8) (command : Command) (m : α) (buffer : List UInt8) :
    Except MessageFault Nat × List UInt8 :=
  match toBytes m with
  | .error fault => (.error fault, buffer)
  | .ok body =>
    let total := headerLength + body.length
    if buffer.length < total then (.error .noRoom, buffer)
    else
      let request : Request :=
        { instanceId, type := platformType, command := Coded.code command, payload := body }
      match request.toBytes with
      | .error fault => (.error fault, buffer)
      | .ok bytes => (.ok total, bytes ++ buffer.drop total)

/-- Reads a body that takes up all bytes. -/
def ofBytes (bytes : List UInt8) : Except MessageFault α :=
  if bytes.length < shortest α then .error .short
  else do
    let (m, rest) ← (get : Reader α).run bytes
    if !rest.isEmpty then throw .trailing
    check m
    return m

/-- Reads the body of a successful response. -/
def ofResponse (r : Response) : Except MessageFault α := do
  accepted r.completion
  ofBytes r.payload

end Body

/-- Reads a response that holds nothing but its completion code. -/
def Response.ofEmpty (r : Response) : Except MessageFault Unit := do
  accepted r.completion
  if !r.payload.isEmpty then throw .trailing

end TerminusMonitor
