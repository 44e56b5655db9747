import TerminusMonitor.Code.Command
import TerminusMonitor.Code.Transfer
import TerminusMonitor.Text.Hex

/-!
Why a message could not be written or read.

A `MessageFault` names the cause. Causes fall into four kinds (`kind`), and the
text of a fault (`message`) tells only the kind and, for the last two, what the
peer did. Some causes have a remark of their own for the log (`remark?`).
-/

namespace TerminusMonitor

/-- Why a message could not be written or read. -/
inductive MessageFault where
  /-- The bytes end before the message does. -/
  | short
  /-- Bytes follow the end of the message. -/
  | trailing
  /-- The room to write into is smaller than the message. -/
  | noRoom
  /-- A byte is no code of its field, no size tag or no truth value. -/
  | undefinedCode
  /-- Fields of a message contradict each other. -/
  | inconsistent
  /-- The instance ID or the message type does not fit its bits of the header. -/
  | unfitHeader
  /-- The header has another version than 0; the byte that says so. -/
  | headerVersion (byte : UInt8)
  /-- A request was expected. -/
  | notRequest
  /-- A response was expected. -/
  | notResponse
  /-- No numeric data size has this tag. -/
  | unknownSize (tag : UInt8)
  /-- The value does not fit the data size of this tag. -/
  | unfitValue (value : Int) (tag : UInt8)
  /-- A state effecter request has no member, or more than it may have. -/
  | effecterCount (count : Nat)
  /-- The record header has a version other than 1. -/
  | recordVersion (handle : UInt32) (version : UInt8)
  /-- The record header declares another length than its data has. -/
  | recordLength (handle : UInt32) (declared : UInt16) (actual : Nat)
  /-- The peer refused the command with a completion code. -/
  | refused (code : UInt8)
  /-- The response is one to another command than the expected one. -/
  | otherCommand (type command : UInt8) (expected : Command)
  /-- A record does not come in one part. -/
  | multipart (flag : TransferFlag)
deriving DecidableEq, Repr

namespace MessageFault

/-- The four kinds of message faults. -/
inductive Kind where
  | invalidLength
  | invalidData
  | command
  | protocol
deriving DecidableEq, Repr

/-- The kind of a fault. -/
def kind : MessageFault → Kind
  | short | trailing | noRoom | recordLength .. => .invalidLength
  | undefinedCode | inconsistent | unfitHeader | headerVersion _ | notRequest | notResponse
  | unknownSize _ | unfitValue .. | effecterCount _ | recordVersion .. => .invalidData
  | refused _ => .command
  | otherCommand .. | multipart _ => .protocol

/-- The text of a fault. -/
def message (fault : MessageFault) : String :=
  match fault with
  | refused code => "PLDM command failed with completion code 0x" ++ Text.hexByte code
  | otherCommand type command expected =>
    s!"PLDM protocol error: Unexpected response: type {type} cmd 0x{Text.hexByte command}" ++
      s!", expected {Coded.name expected}"
  | multipart flag =>
    s!"PLDM protocol error: Multipart PDR transfer unsupported: flag {Coded.name flag}"
  | other =>
    match other.kind with
    | .invalidLength => "invalid message length"
    | _ => "invalid message data"

/-- What is remarked when a fault is found, beside its text. -/
def remark? : MessageFault → Option String
  | headerVersion byte =>
    some ("Unsupported PLDM header version byte 0x" ++ Text.hexByte byte)
  | unknownSize tag => some s!"Unknown numeric data size {tag}"
  | unfitValue value tag => some s!"Value {value} out of range for data size {tag}"
  | effecterCount count => some s!"Bad composite effecter count {count}"
  | recordVersion handle version =>
    some s!"PDR {handle} has unsupported header version {version}"
  | recordLength handle declared actual =>
    some s!"PDR {handle} length {declared} doesn't match data {actual}"
  | _ => none

end MessageFault

end TerminusMonitor
