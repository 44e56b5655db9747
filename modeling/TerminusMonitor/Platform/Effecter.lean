import TerminusMonitor.Code.State
import TerminusMonitor.Platform.Body
import TerminusMonitor.Platform.Identifier
import TerminusMonitor.Platform.Quantity

/-!
Setting and reading effecters (the commands SetNumericEffecterValue,
GetNumericEffecterValue and SetStateEffecterStates).
-/

namespace TerminusMonitor

namespace SetNumericEffecter

/-- Sets a numeric effecter. -/
structure Query where
  effecter : EffecterId
  value : Quantity
deriving DecidableEq, Repr

instance : Body Query where
  shortest := 4
  put q := Field.put q.effecter ++ Field.put q.value.tag ++ q.value.put
  get := do
    let effecter ← Field.get
    let tag ← Field.get
    let value ← Quantity.get tag
    return { effecter, value }

end SetNumericEffecter

namespace ReadNumericEffecter

/-- Asks for the value of a numeric effecter. -/
structure Query where
  effecter : EffecterId
deriving DecidableEq, Repr

instance : Body Query where
  shortest := 2
  put q := Field.put q.effecter
  get := return { effecter := ← Field.get }

/-- The value of a numeric effecter, and the one it is changing to. The two share
one data size tag. -/
structure Answer where
  operation : EffecterOperation
  pending : Quantity
  present : Quantity
deriving DecidableEq, Repr

instance : Body Answer where
  shortest := 4
  put a := Field.put a.present.tag ++ Field.put a.operation ++ a.pending.put ++ a.present.put
  get := do
    let tag ← Field.get
    let operation ← Field.get
    let pending ← Quantity.get tag
    let present ← Quantity.get tag
    return { operation, pending, present }
  check a := if a.pending.tag = a.present.tag then .ok () else .error .inconsistent

end ReadNumericEffecter

namespace SetStateEffecter

/-- What is asked of one effecter of a composite. -/
structure Member where
  request : SetRequest
  state : UInt8
deriving DecidableEq, Repr

/-- The bytes of a member. -/
def Member.put (m : Member) : List UInt8 := Field.put m.request ++ Field.put m.state

/-- Reads a member. -/
def Member.get : Reader Member := do
  let request ← Field.get
  let state ← Field.get
  return { request, state }

/-- The largest number of effecters in a composite. -/
def maxMembers : Nat := 8

/-- Sets the states of a composite state effecter. -/
structure Query where
  effecter : EffecterId
  members : List Member
deriving DecidableEq, Repr

instance : Body Query where
  shortest := 5
  put q :=
    Field.put q.effecter ++ Field.put q.members.length.toUInt8 ++ q.members.flatMap Member.put
  get := do
    let effecter ← Field.get
    let count : UInt8 ← Field.get
    let members ← Wire.times Member.get count.toNat
    return { effecter, members }
  check q :=
    if 1 ≤ q.members.length ∧ q.members.length ≤ maxMembers then .ok ()
    else .error (.effecterCount q.members.length)

end SetStateEffecter

end TerminusMonitor
