import TerminusMonitor.Monitor.Basic

/-!
Setting properties that effecters stand behind.
-/

namespace TerminusMonitor

/-- The whole number that a double is, if it is one. -/
def wholeNumber? (x : Float) : Option Int :=
  match x.toModel.unpack with
  | .finite sign significand exponent _ =>
    if significand % (1 <<< (-exponent).toNat) = 0 then
      some (sign.apply ↑(significand <<< exponent.toNat >>> (-exponent).toNat))
    else none
  | .zero _ => some 0
  | .infinity _ | .notANumber => none

/-- The whole number that a property value stands for, if it does. A double beyond
the range of 64-bit numbers stands for the nearest of them. -/
def PropertyValue.whole? : PropertyValue → Option Int
  | int n => some n.toInt
  | bool b => some (if b then 1 else 0)
  | double x => (wholeNumber? x).map fun n => (Int64.ofIntClamp n).toInt
  | string _ => none

namespace EffecterMapping

/-- The fault of a value that the effecter does not have. -/
def noValue (m : EffecterMapping) (value : PropertyValue) : Fault :=
  .property (.noValue m.path m.property value)

/-- The state for a property value. -/
def stateFor? (states : List UInt8) (values : List PropertyValue) (value : PropertyValue) :
    Option UInt8 :=
  (values.findIdx? (· == value)).bind (states[·]?)

/-- The request that sets the effecter to a property value. -/
def request (m : EffecterMapping) (value : PropertyValue) :
    Except Fault (Except MessageFault Request) :=
  match m.kind with
  | .state states values =>
    match stateFor? states values value with
    | none => .error (m.noValue value)
    | some state =>
      .ok (SetStateEffecter.request m.effecter [{ request := .requestSet, state }])
  | .numeric tag =>
    match value.whole? with
    | none => .error (m.noValue value)
    | some n => .ok (do SetNumericEffecter.request m.effecter (← Quantity.ofInt tag n))

end EffecterMapping

namespace Monitor

variable {μ : Type}

/-- Sends a request to set a property. What comes of it is logged when the response
arrives. -/
def setProperty (path property : String) (value : PropertyValue) : Act (Monitor μ) Unit := do
  let some mapping := (← get).mapping.effecter? path property
    | throw (.property (.unmapped path property))
  match mapping.request value with
  | .error fault => throw fault
  | .ok written =>
    let request ← Act.ofMessage written
    discard (onRequests
      (Correlator.register mapping.eid request (.effecter path property)))

/-- Takes in the outcome of a request to set a property. -/
def effecterComplete (path property : String) (result : Except Fault Response) :
    Effect Unit := do
  match ← Correlator.understand Response.ofEmpty result with
  | .ok () => Effect.log (.propertySet path property)
  | .error fault => Effect.log (.propertyUnset path property fault)

end Monitor

end TerminusMonitor
