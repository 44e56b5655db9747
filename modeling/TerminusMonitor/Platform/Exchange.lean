import TerminusMonitor.Platform.Effecter
import TerminusMonitor.Platform.Sensor
import TerminusMonitor.Platform.Transfer
import TerminusMonitor.Record.Basic

/-!
What is sent for each platform command, and how its response is read. Requests
have no instance ID yet. A response has to be one to the command in question;
that is looked at before its completion code.
-/

namespace TerminusMonitor

/-- A platform request. -/
def Request.ofBody {α : Type} [Body α] (command : Command) (body : α) :
    Except MessageFault Request :=
  return .ofPayload platformType (Coded.code command) (← Body.toBytes body)

/-- Whether a response is one to a platform command. -/
def Response.expect (r : Response) (command : Command) : Except MessageFault Unit :=
  if r.type = platformType ∧ r.command = Coded.code command then .ok ()
  else .error (.otherCommand r.type r.command command)

namespace ReadSensor

/-- Asks for the reading of a sensor. -/
def request (sensor : SensorId) (rearm : Bool) : Except MessageFault Request :=
  Request.ofBody .getSensorReading ({ sensor, rearm } : Query)

/-- Reads the reading of a sensor. -/
def parse (r : Response) : Except MessageFault Answer := do
  r.expect .getSensorReading
  Body.ofResponse r

end ReadSensor

namespace SetNumericEffecter

/-- Asks to set a numeric effecter. -/
def request (effecter : EffecterId) (value : Quantity) : Except MessageFault Request :=
  Request.ofBody .setNumericEffecterValue ({ effecter, value } : Query)

/-- Reads whether a numeric effecter was set. -/
def parse (r : Response) : Except MessageFault Unit := do
  r.expect .setNumericEffecterValue
  r.ofEmpty

end SetNumericEffecter

namespace ReadNumericEffecter

/-- Asks for the value of a numeric effecter. -/
def request (effecter : EffecterId) : Except MessageFault Request :=
  Request.ofBody .getNumericEffecterValue ({ effecter } : Query)

/-- Reads the value of a numeric effecter. -/
def parse (r : Response) : Except MessageFault Answer := do
  r.expect .getNumericEffecterValue
  Body.ofResponse r

end ReadNumericEffecter

namespace SetStateEffecter

/-- Asks to set the states of a composite effecter. -/
def request (effecter : EffecterId) (members : List Member) : Except MessageFault Request :=
  Request.ofBody .setStateEffecterStates ({ effecter, members } : Query)

/-- Reads whether the states of an effecter were set. -/
def parse (r : Response) : Except MessageFault Unit := do
  r.expect .setStateEffecterStates
  r.ofEmpty

end SetStateEffecter

namespace FetchRecord

/-- Asks for a record from its first part on. Handle 0 is the first record of the
repository. -/
def request (record : UInt32) : Except MessageFault Request :=
  Request.ofBody .getPDR
    ({ record, transfer := 0, operation := .getFirstPart, count := maxCount, change := 0 } : Query)

/-- Reads a record that comes in one part, and the handle of the next one. -/
def parse (r : Response) : Except MessageFault (Record × UInt32) := do
  r.expect .getPDR
  let answer : Answer ← Body.ofResponse r
  if answer.flag != .startAndEnd then throw (.multipart answer.flag)
  return (← Record.ofBytes answer.content, answer.nextRecord)

end FetchRecord

end TerminusMonitor
