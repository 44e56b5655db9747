import TerminusMonitor.Effect
import TerminusMonitor.Platform.Sensor
import TerminusMonitor.Sensor.Alarm
import TerminusMonitor.Sensor.Conversion
import TerminusMonitor.Sensor.Unit

/-!
Numeric sensors: their values, whether they are there and work, and their alarms.

The value is a number only while the sensor is both available and functional; it
starts without one. Alarms change only with a value.
-/

namespace TerminusMonitor

/-- A numeric sensor of a terminus. -/
structure NumericSensor where
  key : SensorKey
  name : String
  /-- The path of the object that publishes the sensor. -/
  path : String
  unit : SensorUnit
  /-- The least number of milliseconds between readings; 0 if there is none. -/
  updateInterval : Nat
  maximum : Float
  minimum : Float
  conversion : Conversion
  /-- The hysteresis, in engineering units. -/
  hysteresis : Float
  alarms : List Alarm
  value : Float
  available : Bool
  functional : Bool
deriving Repr

namespace NumericSensor

/-- What stands for no value. -/
def noValue : Float := 0 / 0

/-- The path below which sensors are published. -/
def root : String := "/xyz/openbmc_project/sensors"

/-- An interval of seconds in whole milliseconds; 0 if it is no positive number. A number
of seconds is its significand over 2 ^ 150, times 2 to its exponent. -/
def milliseconds (seconds : Real32) : Nat :=
  let exponent := seconds.bits.toNat >>> 23
  let fraction := seconds.bits.toNat % 0x800000
  -- Infinities, what is no number, and all that has a sign.
  if 255 ≤ exponent then 0
  else
    let significand := if exponent = 0 then fraction else 0x800000 + fraction
    min ((significand * 1000) <<< max exponent 1 >>> 150) 0xFFFFFFFFFFFFFFFF

/-- The sensor that a record describes. Without a path it is published below
`root`, by its unit and name. -/
def ofRecord (tid : Tid) (r : NumericSensorRecord) (name : String) (path? : Option String) :
    NumericSensor :=
  let conversion := Conversion.ofRecord r
  let unit := SensorUnit.ofCode r.baseUnit
  { key := { tid, sensor := r.sensor }
    name
    path := path?.getD s!"{root}/{unit.pathPart}/{name}"
    unit
    updateInterval := milliseconds r.updateInterval
    maximum := conversion.apply r.maxReadable.toFloat
    minimum := conversion.apply r.minReadable.toFloat
    conversion
    hysteresis := conversion.applyDelta r.hysteresis.toFloat
    alarms := Level.all.filterMap fun level =>
      (r.threshold? level).map fun raw =>
        { level, threshold := conversion.apply raw.toFloat, raised := false }
    value := noValue
    available := true
    functional := false }

/-- The levels at which the sensor has a threshold. -/
def levels (s : NumericSensor) : List Level := s.alarms.map (·.level)

/-- Whether the alarm of a level is raised, if the sensor has that level. -/
def alarm? (s : NumericSensor) (level : Level) : Option Bool :=
  (s.alarms.find? (·.level == level)).map (·.raised)

/-! ### Changes -/

/-- The sensor without a value. -/
def blank (s : NumericSensor) (available functional : Bool) : NumericSensor :=
  { s with value := noValue, available, functional }

/-- The sensor after a reading that failed. -/
def fail (s : NumericSensor) : NumericSensor := s.blank s.available false

/-- The sensor when its terminus cannot be reached. -/
def lose (s : NumericSensor) : NumericSensor := s.blank false s.functional

/-- The sensor with a finite value. -/
def hold (s : NumericSensor) (value : Float) : NumericSensor :=
  { s with
    value, available := true, functional := true
    alarms := s.alarms.map (Alarm.next s.hysteresis value) }

/-- The value of a reading. -/
def valueOf (s : NumericSensor) (answer : ReadSensor.Answer) : Float :=
  s.conversion.apply answer.reading.toFloat

/-- The sensor after a reading. -/
def after (s : NumericSensor) (answer : ReadSensor.Answer) : NumericSensor :=
  match answer.operation with
  | .enabled => if (s.valueOf answer).isFinite then s.hold (s.valueOf answer) else s.fail
  | .unavailable => s.blank false false
  | _ => s.blank true false

/-- The alarms that a value changes. -/
def changes (s : NumericSensor) (value : Float) : List Notice :=
  s.alarms.filterMap fun a =>
    if (a.next s.hysteresis value).raised = a.raised then none
    else some (.alarmChanged s.name a.level (a.next s.hysteresis value).raised value a.threshold)

/-- What is worth noting about a reading. -/
def notices (s : NumericSensor) (answer : ReadSensor.Answer) : List Notice :=
  match answer.operation with
  | .enabled =>
    let value := s.valueOf answer
    if value.isFinite then s.changes value else [.unrepresentable s.name value]
  | .unavailable | .disabled => []
  | operation => [.sensorOperation s.name operation]

/-- Takes in a reading. -/
def receive (s : NumericSensor) (answer : ReadSensor.Answer) : Effect NumericSensor := do
  Effect.logAll (s.notices answer)
  return s.after answer

/-! ### Publication -/

/-- The published properties of a sensor. -/
def properties (s : NumericSensor) : Properties :=
  [("Value", .double s.value), ("Unit", .string s.unit.property),
    ("MaxValue", .double s.maximum), ("MinValue", .double s.minimum),
    ("Available", .bool s.available), ("Functional", .bool s.functional)] ++
  s.alarms.flatMap fun a =>
    [(a.thresholdProperty, .double a.threshold), (a.alarmProperty, .bool a.raised)]

/-- Publishes a sensor. -/
def publish (s : NumericSensor) : Effect Unit := Effect.publish s.path s.properties

/-- Publishes sensors, one after the other. -/
def publishAll : List NumericSensor → Effect Unit
  | [] => return
  | s :: rest => do
    s.publish
    publishAll rest

end NumericSensor

end TerminusMonitor
