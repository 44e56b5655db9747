import TerminusMonitor.Record.NumericSensor

/-!
Descriptor records: a common header, then data whose kind the header tells.
Numeric sensor records are decoded, all others kept as they are.
-/

namespace TerminusMonitor

/-- The header of a record. -/
structure RecordHeader where
  handle : UInt32
  version : UInt8
  type : UInt8
  change : UInt16
  /-- The number of bytes after the header. -/
  length : UInt16
deriving DecidableEq, Repr

namespace RecordHeader

/-- The length of a record header. -/
def size : Nat := 10

/-- The version that is understood. -/
def knownVersion : UInt8 := 1

/-- The bytes of a header. -/
def put (h : RecordHeader) : List UInt8 :=
  Field.put h.handle ++ Field.put h.version ++ Field.put h.type ++ Field.put h.change ++
    Field.put h.length

/-- Reads a header. -/
def get : Reader RecordHeader := do
  let handle ← Field.get
  let version ← Field.get
  let type ← Field.get
  let change ← Field.get
  let length ← Field.get
  return { handle, version, type, change, length }

end RecordHeader

/-- The data of a record. -/
inductive RecordData where
  | numericSensor (sensor : NumericSensorRecord)
  /-- Data of another type, undecoded. -/
  | other (bytes : List UInt8)
deriving DecidableEq, Repr

/-- A descriptor record. -/
structure Record where
  header : RecordHeader
  data : RecordData
deriving DecidableEq, Repr

namespace Record

/-- The record type of numeric sensors. -/
def numericSensorType : UInt8 := 2

/-- The record type of state sensors. -/
def stateSensorType : UInt8 := 4

/-- Reads a whole record. The length in the header has to be that of the data. -/
def ofBytes (bytes : List UInt8) : Except MessageFault Record := do
  let (header, rest) ← RecordHeader.get.run bytes
  if header.version != RecordHeader.knownVersion then
    throw (.recordVersion header.handle header.version)
  if rest.length != header.length.toNat then
    throw (.recordLength header.handle header.length rest.length)
  if header.type = numericSensorType then
    return { header, data := .numericSensor (← Body.ofBytes rest) }
  else
    return { header, data := .other rest }

/-- The numeric sensor that a record describes. -/
def sensor? (r : Record) : Option NumericSensorRecord :=
  match r.data with
  | .numericSensor sensor => some sensor
  | .other _ => none

end Record

/-- The bytes of a whole record that describes a sensor. -/
def NumericSensorRecord.recordBytes (handle : UInt32) (r : NumericSensorRecord) :
    Except MessageFault (List UInt8) := do
  let body ← Body.toBytes r
  let header : RecordHeader :=
    { handle, version := RecordHeader.knownVersion, type := Record.numericSensorType, change := 0
      length := body.length.toUInt16 }
  return header.put ++ body

end TerminusMonitor
