import TerminusMonitor.Fault
import TerminusMonitor.Record.NumericSensor
import TerminusMonitor.Code.State

/-!
What is written to the log: one constructor for each thing worth noting, with its
severity (`level`) and its line (`text`).
-/

namespace TerminusMonitor

/-- The severities, from the gravest on. -/
inductive Severity where
  | error
  | warn
  | info
  | debug
deriving DecidableEq, Repr

namespace Severity

/-- The word for a severity. -/
def name : Severity → String
  | error => "ERROR"
  | warn => "WARN"
  | info => "INFO"
  | debug => "DEBUG"

/-- The place of a severity; graver ones come first. -/
def place : Severity → Nat
  | error => 0
  | warn => 1
  | info => 2
  | debug => 3

/-- The severity with a given word, in lower case. -/
def ofWord? (s : String) : Option Severity :=
  [error, warn, info, debug].find? fun l => l.name.toLower == s

end Severity

/-- A thing worth noting. -/
inductive Notice where
  /-- A remark on the cause of a message fault. -/
  | remark (text : String)
  -- instance IDs
  | noFreeId (eid : Eid)
  | unusedIdFreed (eid : Eid) (iid : InstanceId)
  | poolDropped (eid : Eid) (inUse : Nat)
  | idWaitExpired (eid : Eid)
  -- requests
  | duplicatePending (key : RequestKey)
  | requestFailed (eid : Eid) (command : UInt8) (fault : Fault)
  | badMessage (eid : Eid) (fault : MessageFault)
  | strayRequest (eid : Eid) (command : UInt8)
  | otherResponse (key : RequestKey) (type command expectedType expectedCommand : UInt8)
  | unexpectedResponse (key : RequestKey)
  | badResponse (key : RequestKey) (fault : MessageFault)
  | timeReversed (before now : Nat)
  | retrying (key : RequestKey) (command : UInt8) (left : Nat)
  | resendFailed (eid : Eid) (fault : TransportFault)
  | requestExpired (key : RequestKey) (command : UInt8)
  -- sensors
  | sensorOperation (name : String) (operation : SensorOperation)
  | unrepresentable (name : String) (value : Float)
  | alarmChanged (name : String) (level : Level) (raised : Bool) (value threshold : Float)
  -- polling
  | pollingStarted (interval : Nat)
  | pollingStopped
  | queryFailed (key : SensorKey) (fault : MessageFault)
  | noIdForReading (key : SensorKey)
  | readingUnsent (eid : Eid) (key : SensorKey) (fault : TransportFault)
  | pollFailed (key : SensorKey) (fault : Fault)
  | readingDropped (key : SensorKey)
  | readingFailed (name : String) (fault : Fault)
  -- inventory
  | recorded (component : Component) (name version : String)
  | updateAbandoned (component : Component)
  | noRecord (component : Component)
  | secondManager (component : Component)
  | updateRefused (component running : Component)
  | updateStarted (component : Component)
  | updateFinished (component : Component)
  | updateNotRunning (component : Component)
  | noManager (eid : Eid) (type command : UInt8)
  -- mappings
  | mappingsLoaded (sensors effecters : Nat)
  | propertySet (path property : String)
  | propertyUnset (path property : String) (fault : Fault)
  -- termini
  | terminusAdded (tid : Tid) (name : String) (eid : Eid)
  | terminusMoved (tid : Tid) (before now : Eid)
  | terminusReachable (tid : Tid)
  | terminusUnreachable (tid : Tid)
  | terminusRemoved (tid : Tid)
  | recordsRemoved (count : Nat) (eid : Eid)
  | badRequest (eid : Eid) (fault : MessageFault)
  | replyFailed (eid : Eid) (fault : TransportFault)
  -- discovery
  | discovering (tid : Tid)
  | discoveryRunning (tid : Tid)
  | discoveryDeferred (tid : Tid)
  | discoveryFailed (tid : Tid) (fault : Fault)
  | recordDropped (handle : UInt32) (tid : Tid)
  | recordFailed (tid : Tid) (handle : UInt32) (fault : Fault)
  | repositoryLoops (tid : Tid) (handle : UInt32)
  | discovered (tid : Tid) (sensors records : Nat)
  -- service
  | shuttingDown
  | idle
  | receiveFailed (fault : TransportFault)
  -- objects
  | propertyPublished (path property : String) (value : PropertyValue)
  | objectRemoved (path : String)

namespace Notice

/-- A command code, as it is written in the log. -/
def commandText (command : UInt8) : String := "cmd 0x" ++ Text.hexByte command

/-- The key of a request, as it is written in the log. -/
def keyText (key : RequestKey) : String := s!"eid {key.eid} iid {key.iid.val}"

/-- How grave a notice is. -/
def level : Notice → Severity
  | unusedIdFreed .. | duplicatePending _ | timeReversed .. | noRecord _ | secondManager _
  | updateNotRunning _ | receiveFailed _ => .error
  | requestFailed .. | badResponse .. | resendFailed .. | unrepresentable .. | queryFailed ..
  | readingUnsent .. | pollFailed .. | updateAbandoned _ | propertyUnset ..
  | terminusUnreachable _ | replyFailed .. | discoveryFailed .. | recordFailed ..
  | repositoryLoops .. => .warn
  | alarmChanged .. | pollingStarted _ | pollingStopped | updateStarted _ | updateFinished _
  | propertySet .. | terminusAdded .. | terminusMoved .. | terminusReachable _
  | terminusRemoved _ | discovered .. | shuttingDown => .info
  | _ => .debug

/-- The line of a notice. -/
def text : Notice → String
  | remark text => text
  | noFreeId eid => s!"No free instance IDs for eid {eid}"
  | unusedIdFreed eid iid => s!"Free of unused instance ID {iid.val} for eid {eid}"
  | poolDropped eid inUse => s!"eid {eid} removed with {inUse} IDs in use"
  | idWaitExpired eid => s!"Timed out waiting for instance ID for eid {eid}"
  | duplicatePending key => "Duplicate pending request " ++ keyText key
  | requestFailed eid command fault =>
    s!"Request to eid {eid} {commandText command} failed: {fault.message}"
  | badMessage eid fault => s!"Discarding bad message from eid {eid}: {fault.message}"
  | strayRequest eid command => s!"Discarding request from eid {eid} {commandText command}"
  | otherResponse key type command expectedType expectedCommand =>
    s!"Discarding response {keyText key} type {type} {commandText command}" ++
      s!", expected type {expectedType} {commandText expectedCommand}"
  | unexpectedResponse key => "Discarding unexpected response " ++ keyText key
  | badResponse key fault =>
    s!"Bad response from eid {key.eid} iid {key.iid.val}: {fault.message}"
  | timeReversed before now => s!"Time went backwards, {before} to {now}"
  | retrying key command left =>
    s!"Retrying {keyText key} {commandText command}, {left} left"
  | resendFailed eid fault => s!"Resend to eid {eid} failed: {fault.message}"
  | requestExpired key command => s!"Timed out {keyText key} {commandText command}"
  | sensorOperation name operation => s!"{name} operational state {Coded.name operation}"
  | unrepresentable name value => s!"{name} reading converts to {Text.decimal value}"
  | alarmChanged name level raised value threshold =>
    let change := if raised then "asserted" else "deasserted"
    s!"{name} {level.name} {change} at {Text.decimal value}" ++
      s!", threshold {Text.decimal threshold}"
  | pollingStarted interval => s!"Sensor polling started, every {interval}ms"
  | pollingStopped => "Sensor polling stopped"
  | queryFailed key fault => s!"{key.text} request failed: {fault.message}"
  | noIdForReading key => s!"No instance ID for {key.text}, skipping"
  | readingUnsent eid key fault => s!"Sending to {eid} for {key.text} failed: {fault.message}"
  | pollFailed key fault => s!"{key.text} poll failed: {fault.message}"
  | readingDropped key => "Dropping reading for removed " ++ key.text
  | readingFailed name fault => s!"{name} reading failed: {fault.message}"
  | recorded component name version => s!"Inventory {component.text}: {name} {version}"
  | updateAbandoned component => s!"Update for {component.text} abandoned, component removed"
  | noRecord component =>
    s!"No inventory for {component.text}, can't register update manager"
  | secondManager component => "Update manager already registered for " ++ component.text
  | updateRefused component running =>
    s!"Update for {component.text} refused, {running.text} in progress"
  | updateStarted component => "Update started for " ++ component.text
  | updateFinished component => "Update finished for " ++ component.text
  | updateNotRunning component => s!"End of update for {component.text}, not in progress"
  | noManager eid type command =>
    s!"No update manager for eid {eid} type {type} {commandText command}"
  | mappingsLoaded sensors effecters =>
    s!"Loaded {sensors} sensor and {effecters} effecter mappings"
  | propertySet path property => s!"Set {path} {property}"
  | propertyUnset path property fault => s!"Setting {path} {property} failed: {fault.message}"
  | terminusAdded tid name eid => s!"Added terminus {tid} '{name}' at eid {eid}"
  | terminusMoved tid before now => s!"Terminus {tid} moved from eid {before} to {now}"
  | terminusReachable tid => s!"Terminus {tid} reachable"
  | terminusUnreachable tid => s!"Terminus {tid} unreachable"
  | terminusRemoved tid => s!"Removed terminus {tid}"
  | recordsRemoved count eid => s!"Removed {count} inventory entries for eid {eid}"
  | badRequest eid fault => s!"Bad request from eid {eid}: {fault.message}"
  | replyFailed eid fault => s!"Response to eid {eid} failed: {fault.message}"
  | discovering tid => s!"Discovering PDRs for terminus {tid}"
  | discoveryRunning tid => s!"Discovery already running for terminus {tid}"
  | discoveryDeferred tid => s!"No instance ID for terminus {tid} GetPDR, deferred"
  | discoveryFailed tid fault => s!"Terminus {tid} PDR discovery failed: {fault.message}"
  | recordDropped handle tid => s!"Dropping PDR {handle} for terminus {tid}"
  | recordFailed tid handle fault => s!"Terminus {tid} GetPDR {handle} failed: {fault.message}"
  | repositoryLoops tid handle => s!"Terminus {tid} PDR repository loops at handle {handle}"
  | discovered tid sensors records =>
    s!"Terminus {tid} has {sensors} numeric sensors from {records} PDRs"
  | shuttingDown => "Shutting down"
  | idle => "Manager idle, exiting"
  | receiveFailed fault => "Receive failed: " ++ fault.message
  | propertyPublished path property value => s!"{path} {property} = {value.text}"
  | objectRemoved path => s!"{path} removed"

end Notice

end TerminusMonitor
