import TerminusMonitor.Platform.Body

/-!
Fetching a record, or a part of it, from the repository of a terminus (the
command GetPDR). The check sum of a record follows its last part and no other.
-/

namespace TerminusMonitor.FetchRecord

/-- The largest number of record bytes that is asked for at a time. -/
def maxCount : UInt16 := 1000

/-- Asks for a part of a record. -/
structure Query where
  record : UInt32
  /-- Where to go on, as the part before told. -/
  transfer : UInt32
  operation : TransferOperation
  count : UInt16
  change : UInt16
deriving DecidableEq, Repr

instance : Body Query where
  shortest := 13
  put q :=
    Field.put q.record ++ Field.put q.transfer ++ Field.put q.operation ++
      Field.put q.count ++ Field.put q.change
  get := do
    let record ← Field.get
    let transfer ← Field.get
    let operation ← Field.get
    let count ← Field.get
    let change ← Field.get
    return { record, transfer, operation, count, change }

/-- A part of a record. -/
structure Answer where
  /-- The record after this one, or 0 at the end of the repository. -/
  nextRecord : UInt32
  nextTransfer : UInt32
  flag : TransferFlag
  content : List UInt8
  checksum : Option UInt8
deriving DecidableEq, Repr

/-- Reads the check sum after the last part, and nothing after any other. -/
def getChecksum (flag : TransferFlag) : Reader (Option UInt8) :=
  if flag = .last then some <$> Field.get else return none

instance : Body Answer where
  shortest := 11
  put a :=
    Field.put a.nextRecord ++ Field.put a.nextTransfer ++ Field.put a.flag ++
      Field.put a.content.length.toUInt16 ++ a.content ++
      (if a.flag = .last then a.checksum.toList else [])
  get := do
    let nextRecord ← Field.get
    let nextTransfer ← Field.get
    let flag ← Field.get
    let count : UInt16 ← Field.get
    let content ← Wire.bytes count.toNat
    let checksum ← getChecksum flag
    return { nextRecord, nextTransfer, flag, content, checksum }
  check a := if (a.flag = .last) ↔ a.checksum.isSome then .ok () else .error .inconsistent

end TerminusMonitor.FetchRecord
