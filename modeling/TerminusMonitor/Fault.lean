import TerminusMonitor.Key
import TerminusMonitor.Message.Fault
import TerminusMonitor.Property

/-!
Why an operation of the monitor failed. Each fault names its cause; `message` is
its text.
-/

namespace TerminusMonitor

/-- Why the transport did not send or receive a message. -/
inductive TransportFault where
  /-- A failure with a name of its own. -/
  | named (name : String)
  /-- A failure of the system below, with its text. -/
  | system (text : String)
deriving DecidableEq, Repr

/-- The text of a transport fault. -/
def TransportFault.message : TransportFault → String
  | named name => "MCTP Error: " ++ name
  | system text => "MCTP IO Error: " ++ text

/-- What was asked for at a moment when it must not be. -/
inductive StateFault where
  /-- An instance ID was freed that is not in use. -/
  | unusedId
  /-- An instance ID was handed out that has a request pending. -/
  | duplicatePending
  /-- The clock was set back. -/
  | timeReversed
  /-- An update manager was registered for a component without a record. -/
  | noRecord
  /-- A second update manager was registered for a component. -/
  | secondManager
  /-- An update was ended that is not running. -/
  | noUpdate
deriving DecidableEq, Repr

/-- The text of a state fault. -/
def StateFault.message : StateFault → String
  | unusedId => "instance ID not in use"
  | duplicatePending => "duplicate pending request"
  | timeReversed => "time went backwards"
  | noRecord => "no inventory record"
  | secondManager => "update manager registered"
  | noUpdate => "update not in progress"

/-- Why a property cannot be set. -/
inductive PropertyFault where
  /-- No effecter is mapped to the property. -/
  | unmapped (path property : String)
  /-- The effecter that is mapped to the property has no such value. -/
  | noValue (path property : String) (value : PropertyValue)

/-- The text of a property fault. -/
def PropertyFault.message : PropertyFault → String
  | unmapped path property => s!"{path} {property}"
  | noValue path property value => s!"{path} {property} value {value.text}"

/-- Why a mapping was refused. -/
inductive MappingFault where
  /-- The records could not be loaded; the text says why. -/
  | unavailable (reason : String)
  /-- A sensor has no object path. -/
  | noPath (sensor : SensorId)
  /-- A sensor is described by a record of a type that has no sensors. -/
  | recordType (path : String) (type : UInt8)
  /-- A numeric effecter has an unknown data size. -/
  | dataSize (path property : String) (tag : UInt8)
  /-- A numeric effecter is mapped to a property that holds text. -/
  | textProperty (path property : String)
  /-- A state effecter has no states, or not one for each property value. -/
  | stateCount (path property : String) (states values : Nat)
  /-- A value is not of the property's type. -/
  | valueType (path property : String) (value : PropertyValue) (type : PropertyType)

/-- The text of a mapping fault. -/
def MappingFault.message : MappingFault → String
  | unavailable reason => reason
  | noPath sensor => s!"sensor {sensor} has no path"
  | recordType path type => s!"{path}: unsupported PDR type {type}"
  | dataSize path property tag => s!"{path} {property}: bad effecter data size {tag}"
  | textProperty path property => s!"{path} {property}: numeric effecter with string property"
  | stateCount path property states values =>
    s!"{path} {property}: {states} states for {values} property values"
  | valueType path property value type =>
    s!"{path} {property}: value {value.text} is not {type.name}"

/-- Why an operation failed. -/
inductive Fault where
  /-- All instance IDs of the endpoint are in use. -/
  | exhausted
  | transport (fault : TransportFault)
  /-- No response came in time. -/
  | timedOut
  | state (fault : StateFault)
  /-- An update of the component is running. -/
  | updating (component : Component)
  | unknownTerminus (tid : Tid)
  | property (fault : PropertyFault)
  | mapping (fault : MappingFault)
  | invalid (fault : MessageFault)

/-- The text of a fault. -/
def Fault.message : Fault → String
  | exhausted => "Resource exhausted"
  | transport fault => "Transport error: " ++ fault.message
  | timedOut => "Timed out"
  | state fault => "Invalid state: " ++ fault.message
  | updating component => "Update in progress for " ++ component.text
  | unknownTerminus tid => s!"Unknown terminus {tid}"
  | property fault => "Unknown property " ++ fault.message
  | mapping fault => "Configuration error: " ++ fault.message
  | invalid fault => "PLDM error: " ++ fault.message

end TerminusMonitor
