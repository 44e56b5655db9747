/-!
Units of sensor values.
-/

namespace TerminusMonitor

/-- The unit of a sensor's values. -/
inductive SensorUnit where
  | degreesC
  | volts
  | amperes
  | watts
  | joules
  | rpms
  /-- A unit without a name here, by its code. -/
  | other (code : UInt8)
deriving DecidableEq, Repr

namespace SensorUnit

/-- The unit with a given code. -/
def ofCode : UInt8 → SensorUnit
  | 2 => degreesC
  | 5 => volts
  | 6 => amperes
  | 7 => watts
  | 8 => joules
  | 19 => rpms
  | code => other code

/-- The name of a unit. -/
def name : SensorUnit → String
  | degreesC => "DegreesC"
  | volts => "Volts"
  | amperes => "Amperes"
  | watts => "Watts"
  | joules => "Joules"
  | rpms => "Rpms"
  | other code => s!"Other({code})"

/-- The part of an object path that holds the sensors of a unit. -/
def pathPart : SensorUnit → String
  | degreesC => "temperature"
  | volts => "voltage"
  | amperes => "current"
  | watts => "power"
  | joules => "energy"
  | rpms => "fan_tach"
  | other _ => "unknown"

/-- The published text of a unit, empty if it has no name. -/
def property : SensorUnit → String
  | degreesC => published "DegreesC"
  | volts => published "Volts"
  | amperes => published "Amperes"
  | watts => published "Watts"
  | joules => published "Joules"
  | rpms => published "RPMS"
  | other _ => ""
where
  /-- The full form of a published unit. -/
  published (name : String) : String := "xyz.openbmc_project.Sensor.Value.Unit." ++ name

end SensorUnit

end TerminusMonitor
