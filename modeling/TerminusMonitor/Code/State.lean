import TerminusMonitor.Code.Basic

/-!
States reported and requested through sensors and effecters.
-/

namespace TerminusMonitor

/-- Whether a sensor operates. -/
inductive SensorOperation where
  | enabled
  | disabled
  | unavailable
  | statusUnknown
  | failed
  | initializing
  | shuttingDown
  | inTest
deriving DecidableEq, Repr

instance : Coded SensorOperation where
  all := [.enabled, .disabled, .unavailable, .statusUnknown, .failed, .initializing,
    .shuttingDown, .inTest]
  code
    | .enabled => 0
    | .disabled => 1
    | .unavailable => 2
    | .statusUnknown => 3
    | .failed => 4
    | .initializing => 5
    | .shuttingDown => 6
    | .inTest => 7
  name
    | .enabled => "Enabled"
    | .disabled => "Disabled"
    | .unavailable => "Unavailable"
    | .statusUnknown => "StatusUnknown"
    | .failed => "Failed"
    | .initializing => "Initializing"
    | .shuttingDown => "ShuttingDown"
    | .inTest => "InTest"
  mem_all x := by cases x <;> decide
  code_inj {x y} h := by cases x <;> cases y <;> first | rfl | exact absurd h (by decide)

/-- Which events a sensor generates. -/
inductive EventGeneration where
  | noEventGeneration
  | eventsDisabled
  | eventsEnabled
  | opEventsOnlyEnabled
  | stateEventsOnlyEnabled
deriving DecidableEq, Repr

instance : Coded EventGeneration where
  all := [.noEventGeneration, .eventsDisabled, .eventsEnabled, .opEventsOnlyEnabled,
    .stateEventsOnlyEnabled]
  code
    | .noEventGeneration => 0
    | .eventsDisabled => 1
    | .eventsEnabled => 2
    | .opEventsOnlyEnabled => 3
    | .stateEventsOnlyEnabled => 4
  name
    | .noEventGeneration => "NoEventGeneration"
    | .eventsDisabled => "EventsDisabled"
    | .eventsEnabled => "EventsEnabled"
    | .opEventsOnlyEnabled => "OpEventsOnlyEnabled"
    | .stateEventsOnlyEnabled => "StateEventsOnlyEnabled"
  mem_all x := by cases x <;> decide
  code_inj {x y} h := by cases x <;> cases y <;> first | rfl | exact absurd h (by decide)

/-- Where a reading lies among the thresholds, as the sensor itself sees it. -/
inductive SensorState where
  | unknown
  | normal
  | warning
  | critical
  | fatal
  | lowerWarning
  | lowerCritical
  | lowerFatal
  | upperWarning
  | upperCritical
  | upperFatal
deriving DecidableEq, Repr

instance : Coded SensorState where
  all := [.unknown, .normal, .warning, .critical, .fatal, .lowerWarning, .lowerCritical,
    .lowerFatal, .upperWarning, .upperCritical, .upperFatal]
  code
    | .unknown => 0
    | .normal => 1
    | .warning => 2
    | .critical => 3
    | .fatal => 4
    | .lowerWarning => 5
    | .lowerCritical => 6
    | .lowerFatal => 7
    | .upperWarning => 8
    | .upperCritical => 9
    | .upperFatal => 10
  name
    | .unknown => "Unknown"
    | .normal => "Normal"
    | .warning => "Warning"
    | .critical => "Critical"
    | .fatal => "Fatal"
    | .lowerWarning => "LowerWarning"
    | .lowerCritical => "LowerCritical"
    | .lowerFatal => "LowerFatal"
    | .upperWarning => "UpperWarning"
    | .upperCritical => "UpperCritical"
    | .upperFatal => "UpperFatal"
  mem_all x := by cases x <;> decide
  code_inj {x y} h := by cases x <;> cases y <;> first | rfl | exact absurd h (by decide)

/-- Whether an effecter operates. -/
inductive EffecterOperation where
  | enabledUpdatePending
  | enabledNoUpdatePending
  | disabled
  | unavailable
  | statusUnknown
  | failed
  | initializing
  | shuttingDown
  | inTest
deriving DecidableEq, Repr

instance : Coded EffecterOperation where
  all := [.enabledUpdatePending, .enabledNoUpdatePending, .disabled, .unavailable,
    .statusUnknown, .failed, .initializing, .shuttingDown, .inTest]
  code
    | .enabledUpdatePending => 0
    | .enabledNoUpdatePending => 1
    | .disabled => 2
    | .unavailable => 3
    | .statusUnknown => 4
    | .failed => 5
    | .initializing => 6
    | .shuttingDown => 7
    | .inTest => 8
  name
    | .enabledUpdatePending => "EnabledUpdatePending"
    | .enabledNoUpdatePending => "EnabledNoUpdatePending"
    | .disabled => "Disabled"
    | .unavailable => "Unavailable"
    | .statusUnknown => "StatusUnknown"
    | .failed => "Failed"
    | .initializing => "Initializing"
    | .shuttingDown => "ShuttingDown"
    | .inTest => "InTest"
  mem_all x := by cases x <;> decide
  code_inj {x y} h := by cases x <;> cases y <;> first | rfl | exact absurd h (by decide)

/-- Whether a state effecter is to change. -/
inductive SetRequest where
  | noChange
  | requestSet
deriving DecidableEq, Repr

instance : Coded SetRequest where
  all := [.noChange, .requestSet]
  code
    | .noChange => 0
    | .requestSet => 1
  name
    | .noChange => "NoChange"
    | .requestSet => "RequestSet"
  mem_all x := by cases x <;> decide
  code_inj {x y} h := by cases x <;> cases y <;> first | rfl | exact absurd h (by decide)

end TerminusMonitor
