import TerminusMonitor.Code.Basic

/-!
Commands of the platform monitoring and control message type.
-/

namespace TerminusMonitor

/-- A platform monitoring command. -/
inductive Command where
  | getTerminusUID
  | setEventReceiver
  | getEventReceiver
  | platformEventMessage
  | pollForPlatformEventMessage
  | setNumericSensorEnable
  | getSensorReading
  | getSensorThresholds
  | setNumericEffecterEnable
  | setNumericEffecterValue
  | getNumericEffecterValue
  | setStateEffecterEnables
  | setStateEffecterStates
  | getStateEffecterStates
  | getPDRRepositoryInfo
  | getPDR
  | findPDR
deriving DecidableEq, Repr

instance : Coded Command where
  all := [.getTerminusUID, .setEventReceiver, .getEventReceiver, .platformEventMessage,
    .pollForPlatformEventMessage, .setNumericSensorEnable, .getSensorReading,
    .getSensorThresholds, .setNumericEffecterEnable, .setNumericEffecterValue,
    .getNumericEffecterValue, .setStateEffecterEnables, .setStateEffecterStates,
    .getStateEffecterStates, .getPDRRepositoryInfo, .getPDR, .findPDR]
  code
    | .getTerminusUID => 3
    | .setEventReceiver => 4
    | .getEventReceiver => 5
    | .platformEventMessage => 10
    | .pollForPlatformEventMessage => 11
    | .setNumericSensorEnable => 0x10
    | .getSensorReading => 0x11
    | .getSensorThresholds => 0x12
    | .setNumericEffecterEnable => 0x30
    | .setNumericEffecterValue => 0x31
    | .getNumericEffecterValue => 0x32
    | .setStateEffecterEnables => 0x38
    | .setStateEffecterStates => 0x39
    | .getStateEffecterStates => 0x3a
    | .getPDRRepositoryInfo => 0x50
    | .getPDR => 0x51
    | .findPDR => 0x52
  name
    | .getTerminusUID => "GetTerminusUID"
    | .setEventReceiver => "SetEventReceiver"
    | .getEventReceiver => "GetEventReceiver"
    | .platformEventMessage => "PlatformEventMessage"
    | .pollForPlatformEventMessage => "PollForPlatformEventMessage"
    | .setNumericSensorEnable => "SetNumericSensorEnable"
    | .getSensorReading => "GetSensorReading"
    | .getSensorThresholds => "GetSensorThresholds"
    | .setNumericEffecterEnable => "SetNumericEffecterEnable"
    | .setNumericEffecterValue => "SetNumericEffecterValue"
    | .getNumericEffecterValue => "GetNumericEffecterValue"
    | .setStateEffecterEnables => "SetStateEffecterEnables"
    | .setStateEffecterStates => "SetStateEffecterStates"
    | .getStateEffecterStates => "GetStateEffecterStates"
    | .getPDRRepositoryInfo => "GetPDRRepositoryInfo"
    | .getPDR => "GetPDR"
    | .findPDR => "FindPDR"
  mem_all x := by cases x <;> decide
  code_inj {x y} h := by cases x <;> cases y <;> first | rfl | exact absurd h (by decide)

/-- The message type of platform monitoring and control. -/
def platformType : UInt8 := 2

end TerminusMonitor
