import TerminusMonitor.Inventory.Basic

/-!
Scripted update managers, which answer every request in the same way.
-/

namespace TerminusMonitor

/-- An update manager that always answers alike. Its response tells its tag. -/
structure Scripted where
  tag : UInt8
  /-- Whether it claims the requests that it is offered. -/
  claims : Bool
  completion : UInt8
  /-- The instance ID of its responses, if it is not that of the request. -/
  instanceId? : Option UInt8
deriving DecidableEq, Repr

namespace Scripted

/-- The response of a scripted manager. -/
def answer (m : Scripted) (r : Request) : Response :=
  { instanceId := m.instanceId?.getD r.instanceId, type := r.type, command := r.command
    completion := m.completion, payload := [m.tag] }

instance : UpdateManager Scripted where
  offer m _ r := (if m.claims then .claimed (m.answer r) else .notExpected (m.answer r), m)

end Scripted

/-- The tags of the managers that were offered a request, in order. -/
def Inventory.offeredTags (i : Inventory Scripted) (journal : Journal) : List UInt8 :=
  journal.filterMap fun
    | .offered none => i.primary?.map (·.tag)
    | .offered (some component) => (i.managers.find? (·.1 == component)).map (·.2.tag)
    | _ => none

end TerminusMonitor
