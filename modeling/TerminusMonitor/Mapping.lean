import TerminusMonitor.Effect
import TerminusMonitor.Platform.Quantity
import TerminusMonitor.Record.Basic

/-!
Mappings between object properties and sensors or effecters.

A mapping is used only if all of its records make sense: sensors have a path and
belong to a record type that describes sensors, numeric effecters have a known
data size and no text property, and state effecters have one state for each
property value.
-/

namespace TerminusMonitor

/-- The object that a sensor is published as. -/
structure SensorMapping where
  path : String
  sensor : SensorId
  recordType : UInt8
deriving DecidableEq, Repr

namespace SensorMapping

/-- Refuses a mapping without a path, or one of a record type without sensors. -/
def check (m : SensorMapping) : Except MappingFault Unit :=
  if m.path.isEmpty then .error (.noPath m.sensor)
  else if m.recordType = Record.numericSensorType ∨ m.recordType = Record.stateSensorType then
    .ok ()
  else .error (.recordType m.path m.recordType)

/-- The name of the object, the last part of its path. -/
def name (m : SensorMapping) : String := (m.path.splitOn "/").getLastD m.path

end SensorMapping

/-- How an effecter is set. -/
inductive EffecterKind where
  /-- By a number of the data size with this tag. -/
  | numeric (tag : UInt8)
  /-- By one of its states, each for the property value at its place. -/
  | state (states : List UInt8) (values : List PropertyValue)
deriving Repr

/-- The effecter behind a property. -/
structure EffecterMapping where
  path : String
  property : String
  type : PropertyType
  /-- The endpoint of the terminus that has the effecter. -/
  eid : Eid
  effecter : EffecterId
  kind : EffecterKind
deriving Repr

namespace EffecterMapping

/-- Refuses a mapping whose values cannot be set. -/
def check (m : EffecterMapping) : Except MappingFault Unit :=
  match m.kind with
  | .numeric tag =>
    if Quantity.lastTag < tag then .error (.dataSize m.path m.property tag)
    else if m.type = .string then .error (.textProperty m.path m.property)
    else .ok ()
  | .state states values =>
    if states.isEmpty ∨ states.length ≠ values.length then
      .error (.stateCount m.path m.property states.length values.length)
    else
      match values.find? fun v => !m.type.accepts v with
      | some v => .error (.valueType m.path m.property v m.type)
      | none => .ok ()

end EffecterMapping

/-- The mappings in use. -/
structure Mapping where
  sensors : List SensorMapping := []
  effecters : List EffecterMapping := []
deriving Repr

namespace Mapping

/-- Checks records in turn. -/
def checkAll {α : Type} (check : α → Except MappingFault Unit) :
    List α → Except MappingFault Unit
  | [] => .ok ()
  | a :: rest => do
    check a
    checkAll check rest

/-- The mapping of the records that are supplied: those of the sensors are asked
for and checked before those of the effecters. -/
def ofRecords (sensors : Except Fault (List SensorMapping))
    (effecters : Except Fault (List EffecterMapping)) : Except Fault Mapping := do
  let sensors ← sensors
  (checkAll SensorMapping.check sensors).mapError .mapping
  let effecters ← effecters
  (checkAll EffecterMapping.check effecters).mapError .mapping
  return { sensors, effecters }

/-- The sensor mapping of a numeric sensor, the first one if there are more. -/
def sensor? (m : Mapping) (sensor : SensorId) : Option SensorMapping :=
  m.sensors.find? fun s => s.sensor == sensor && s.recordType == Record.numericSensorType

/-- The effecter mapping of a property, the first one if there are more. -/
def effecter? (m : Mapping) (path property : String) : Option EffecterMapping :=
  m.effecters.find? fun e => e.path == path && e.property == property

end Mapping

end TerminusMonitor
