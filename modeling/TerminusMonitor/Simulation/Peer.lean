import TerminusMonitor.Platform.Exchange

/-!
What a peer answers to requests for records and readings.
-/

namespace TerminusMonitor

/-- The message that answers a platform command, or none if it cannot be written. -/
def Response.answering {α : Type} [Body α] (iid : UInt8) (command : Command) (body : α) :
    List UInt8 :=
  let message := do
    let payload ← Body.toBytes body
    Response.toBytes {
      instanceId := iid, type := platformType, command := Coded.code command
      completion := success, payload }
  message.toOption.getD []

/-- The message that brings the record of a sensor, and names the next record. -/
def FetchRecord.answering (iid : UInt8) (next : UInt32) (sensor : NumericSensorRecord) :
    List UInt8 :=
  Response.answering iid .getPDR ({
    nextRecord := next, nextTransfer := 0, flag := .startAndEnd, checksum := none
    content := (sensor.recordBytes 1).toOption.getD [] } : Answer)

/-- The message that brings the reading of a sensor that is in a state of operation. -/
def ReadSensor.answering (iid : UInt8) (operation : SensorOperation) (reading : Quantity) :
    List UInt8 :=
  Response.answering iid .getSensorReading ({
    operation, events := .noEventGeneration, present := .unknown, previous := .unknown
    event := .unknown, reading } : Answer)

end TerminusMonitor
