import TerminusMonitor.Code.State
import TerminusMonitor.Platform.Body
import TerminusMonitor.Platform.Identifier
import TerminusMonitor.Platform.Quantity

/-!
Reading a numeric sensor (the command GetSensorReading).
-/

namespace TerminusMonitor.ReadSensor

/-- Asks for the reading of a sensor. -/
structure Query where
  sensor : SensorId
  /-- Whether the sensor is to report events again. -/
  rearm : Bool
deriving DecidableEq, Repr

instance : Body Query where
  shortest := 3
  put q := Field.put q.sensor ++ Field.put q.rearm
  get := do
    let sensor ← Field.get
    let rearm ← Field.get
    return { sensor, rearm }

/-- The reading of a sensor. -/
structure Answer where
  operation : SensorOperation
  events : EventGeneration
  present : SensorState
  previous : SensorState
  event : SensorState
  reading : Quantity
deriving DecidableEq, Repr

instance : Body Answer where
  shortest := 7
  put a :=
    Field.put a.reading.tag ++ Field.put a.operation ++ Field.put a.events ++
      Field.put a.present ++ Field.put a.previous ++ Field.put a.event ++ a.reading.put
  get := do
    let tag ← Field.get
    let operation ← Field.get
    let events ← Field.get
    let present ← Field.get
    let previous ← Field.get
    let event ← Field.get
    let reading ← Quantity.get tag
    return { operation, events, present, previous, event, reading }

end TerminusMonitor.ReadSensor
