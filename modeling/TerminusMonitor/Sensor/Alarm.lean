import TerminusMonitor.Record.NumericSensor

/-!
Threshold alarms with hysteresis.

A high alarm is raised by a reading at or above its threshold, and cleared only
by one below the threshold less the hysteresis; a low alarm the other way round.
Between the two a reading leaves the alarm as it is.
-/

namespace TerminusMonitor

/-- The state of an alarm after a reading. -/
def latch {α : Type} [LE α] [LT α] [DecidableLE α] [DecidableLT α] [Add α] [Sub α]
    (high : Bool) (threshold hysteresis : α) (alarm : Bool) (reading : α) : Bool :=
  if high then
    if threshold ≤ reading then true
    else if reading < threshold - hysteresis then false
    else alarm
  else if reading ≤ threshold then true
  else if threshold + hysteresis < reading then false
  else alarm

/-- The states of an alarm after each of a sequence of readings. -/
def latches {α : Type} [LE α] [LT α] [DecidableLE α] [DecidableLT α] [Add α] [Sub α]
    (high : Bool) (threshold hysteresis : α) (alarm : Bool) : List α → List Bool
  | [] => []
  | reading :: rest =>
    let alarm := latch high threshold hysteresis alarm reading
    alarm :: latches high threshold hysteresis alarm rest

/-- The alarm of one level of a sensor. -/
structure Alarm where
  level : Level
  /-- The threshold, in engineering units. -/
  threshold : Float
  raised : Bool
deriving Repr

namespace Alarm

/-- The alarm after a reading. -/
def next (hysteresis : Float) (reading : Float) (a : Alarm) : Alarm :=
  { a with raised := latch a.level.isHigh a.threshold hysteresis a.raised reading }

/-- The property that publishes whether an alarm is raised. -/
def alarmProperty (a : Alarm) : String :=
  match a.level with
  | .upperWarning => "WarningAlarmHigh"
  | .lowerWarning => "WarningAlarmLow"
  | .upperCritical => "CriticalAlarmHigh"
  | .lowerCritical => "CriticalAlarmLow"
  | .upperFatal => "HardShutdownAlarmHigh"
  | .lowerFatal => "HardShutdownAlarmLow"

/-- The property that publishes a threshold. -/
def thresholdProperty (a : Alarm) : String :=
  match a.level with
  | .upperWarning => "WarningHigh"
  | .lowerWarning => "WarningLow"
  | .upperCritical => "CriticalHigh"
  | .lowerCritical => "CriticalLow"
  | .upperFatal => "HardShutdownHigh"
  | .lowerFatal => "HardShutdownLow"

end Alarm

end TerminusMonitor
