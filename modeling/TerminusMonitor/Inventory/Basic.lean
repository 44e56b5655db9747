import TerminusMonitor.Effect
import TerminusMonitor.Inventory.Descriptor
import TerminusMonitor.Message.Basic

/-!
The firmware of the termini: a record for each known component, the update
managers that take care of them, and the update that is running.

A component has at most one record, at most one update manager, and a manager only
with a record. One update runs at a time. A request that comes from an endpoint is
offered to the primary manager, then to the managers of the endpoint's components
in the order of their registration, until one claims it.

Entries are kept in the order in which their components became known. An update
manager has its place in the order of registration beside it, and no two managers
have the same place (`Inventory.apart`, `Inventory.below`).
-/

namespace TerminusMonitor

/-- The record of a component. -/
structure Firmware where
  name : String
  version : String
  descriptors : List Descriptor
deriving DecidableEq, Repr

/-- What an update manager makes of a request. -/
inductive Handled where
  /-- It takes care of the request, and this is the response. -/
  | claimed (response : Response)
  /-- It was not expecting the request; the response, if nobody else was. -/
  | notExpected (response : Response)
deriving DecidableEq, Repr

/-- The response of an update manager. -/
def Handled.response : Handled → Response
  | claimed response => response
  | notExpected response => response

/-- Update managers: they answer requests, and change by them. -/
class UpdateManager (μ : Type) where
  offer : μ → Eid → Request → Handled × μ

namespace Inventory

/-- What is kept of a component. -/
structure Entry (μ : Type) where
  firmware : Firmware
  manager? : Option μ := none
  /-- The place of the update manager in the order of registration. Without a manager
  it says nothing. -/
  place : Nat := 0

/-- The update manager of an entry, if it has one, with its place and its component. -/
def Entry.placed? {μ : Type} (e : Component × Entry μ) : Option (Nat × Component × μ) :=
  e.2.manager?.map fun manager => (e.2.place, e.1, manager)

/-- Two entries are of different components, and their managers, if both have one, at
different places. -/
def Entry.Apart {μ : Type} (a b : Component × Entry μ) : Prop :=
  a.1 ≠ b.1 ∧ (a.2.manager?.isSome → b.2.manager?.isSome → a.2.place ≠ b.2.place)

end Inventory

/-- The inventory of components. -/
structure Inventory (μ : Type) where
  /-- The known components, in the order in which they became known. -/
  entries : List (Component × Inventory.Entry μ) := []
  /-- The place of the update manager that is registered next. -/
  nextPlace : Nat := 0
  /-- The manager that is offered every request first. -/
  primary? : Option μ := none
  /-- The component that is being updated. -/
  updating? : Option Component := none
  apart : entries.Pairwise Inventory.Entry.Apart := by exact .nil
  below : ∀ e ∈ entries, e.2.manager?.isSome → e.2.place < nextPlace := by
    exact fun _ mem => absurd mem List.not_mem_nil

namespace Inventory

variable {μ : Type}

/-- The entry of a component. -/
def find? (i : Inventory μ) (component : Component) : Option (Entry μ) :=
  (i.entries.find? (·.1 == component)).map (·.2)

/-- The record of each component. -/
def records (i : Inventory μ) : Table Component Firmware :=
  .ofList (i.entries.map fun e => (e.1, e.2.firmware))

/-- A text that shows the extent of the inventory. -/
def text (i : Inventory μ) : String :=
  let updating := match i.updating? with
    | none => "None"
    | some c =>
      s!"Some(SoftwareIdentifier \x7b eid: Eid({c.eid}), component: {c.number} \x7d)"
  let primary := if i.primary?.isSome then "true" else "false"
  s!"SoftwareInventoryManager \x7b entries: {i.entries.length}, primary: {primary}" ++
    s!", updating: {updating} \x7d"

/-! ### Changes of the entries -/

/-- Changes the entry of a component, but neither whether it has an update manager nor
the place of that manager. -/
def edit (i : Inventory μ) (component : Component) (f : Entry μ → Entry μ)
    (same : ∀ e, (f e).manager?.isSome = e.manager?.isSome ∧ (f e).place = e.place) :
    Inventory μ :=
  { i with
    entries := i.entries.map fun e => if e.1 = component then (e.1, f e.2) else e
    apart := by
      refine i.apart.map _ fun a b h => ?_
      split <;> split <;> simpa [Entry.Apart, same] using h
    below := by
      intro _ mem some
      obtain ⟨e, listed, rfl⟩ := List.mem_map.mp mem
      split at some
      next here =>
        rw [if_pos here, (same _).2]
        exact i.below e listed ((same _).1 ▸ some)
      next there =>
        rw [if_neg there]
        exact i.below e listed some }

/-- Adds the record of a component that has none. -/
def append (i : Inventory μ) (component : Component) (firmware : Firmware)
    (absent : i.entries.any (·.1 == component) = false) : Inventory μ :=
  { i with
    entries := i.entries ++ [(component, { firmware })]
    apart := by
      refine List.pairwise_append.mpr ⟨i.apart, List.pairwise_singleton _ _, ?_⟩
      intro a mem b last
      obtain rfl := List.mem_singleton.mp last
      refine ⟨?_, nofun⟩
      simpa using List.any_eq_false.mp absent a mem
    below := by
      intro e mem some
      rcases List.mem_append.mp mem with mem | last
      · exact i.below e mem some
      · obtain rfl := List.mem_singleton.mp last
        cases some }

/-- The inventory with the record of a component. Its update manager stays. -/
def withRecord (i : Inventory μ) (component : Component) (firmware : Firmware) : Inventory μ :=
  if known : i.entries.any (·.1 == component) then
    i.edit component ({ · with firmware }) fun _ => ⟨rfl, rfl⟩
  else i.append component firmware (Bool.eq_false_iff.mpr known)

/-- The inventory without the entries of some components. -/
def without (i : Inventory μ) (which : Component → Bool) : Inventory μ :=
  { i with
    entries := i.entries.filter fun e => !which e.1
    apart := i.apart.filter _
    below := fun e mem => i.below e (List.mem_filter.mp mem).1 }

/-- The inventory with an update manager at the next place, for a component that has a
record. -/
def withManager (i : Inventory μ) (component : Component) (manager : μ) : Inventory μ :=
  let place := i.nextPlace
  { i with
    entries := i.entries.map fun e =>
      if e.1 = component then (e.1, { e.2 with manager? := some manager, place }) else e
    nextPlace := place + 1
    apart := by
      refine List.pairwise_map.mpr (i.apart.imp_of_mem fun {a b} memA memB h => ?_)
      refine ⟨by split <;> split <;> exact h.1, ?_⟩
      split <;> split
      next hereA hereB => exact absurd (hereA.trans hereB.symm) h.1
      next => exact fun _ some => Nat.ne_of_gt (i.below b memB some)
      next => exact fun some _ => Nat.ne_of_lt (i.below a memA some)
      next => exact h.2
    below := by
      intro _ mem some
      obtain ⟨e, listed, rfl⟩ := List.mem_map.mp mem
      split at some
      next here =>
        rw [if_pos here]
        exact Nat.lt_succ_self _
      next there =>
        rw [if_neg there]
        exact Nat.lt_succ_of_lt (i.below e listed some) }

/-- The inventory in which an update manager has changed. -/
def withChanged (i : Inventory μ) (component : Component) (manager : μ) : Inventory μ :=
  i.edit component (fun e => { e with manager? := e.manager?.map fun _ => manager })
    fun _ => ⟨Option.isSome_map, rfl⟩

/-! ### Records -/

/-- Sets the record of a component. Its update manager stays. -/
def create (component : Component) (firmware : Firmware) : Task (Inventory μ) Unit := do
  Effect.log (.recorded component firmware.name firmware.version)
  modify (·.withRecord component firmware)

/-- Removes the records of some components with their update managers, and
abandons an update of one of them. The number of records removed. -/
def eraseIf (which : Component → Bool) : Task (Inventory μ) Nat := do
  if let some running := (← get).updating?.filter which then
    Effect.log (.updateAbandoned running)
    modify ({ · with updating? := none })
  let before := (← get).entries.length
  modify (·.without which)
  return before - (← get).entries.length

/-- Removes the record of a component. Whether there was one. -/
def erase (component : Component) : Task (Inventory μ) Bool :=
  return 0 < (← eraseIf (· == component))

/-! ### Updates -/

/-- Starts an update, if none is running. -/
def begin (component : Component) : Act (Inventory μ) Unit := do
  if let some running := (← get).updating? then
    Effect.log (.updateRefused component running)
    throw (.updating running)
  Effect.log (.updateStarted component)
  modify ({ · with updating? := some component })

/-- Ends the update of a component, if it is running. -/
def finish (component : Component) : Act (Inventory μ) Unit := do
  if (← get).updating? ≠ some component then
    Effect.log (.updateNotRunning component)
    throw (.state .noUpdate)
  Effect.log (.updateFinished component)
  modify ({ · with updating? := none })

/-! ### Update managers -/

/-- The update managers of some components, with the components, in the order of their
registration. -/
def managersOf (i : Inventory μ) (which : Component → Bool) : List (Component × μ) :=
  let placed := (i.entries.filter fun e => which e.1).filterMap Entry.placed?
  (placed.mergeSort fun a b => a.1 ≤ b.1).map (·.2)

/-- The update managers of all components, in the order of their registration. -/
def managers (i : Inventory μ) : List (Component × μ) := i.managersOf fun _ => true

/-- Whether a component has an update manager. -/
def hasManager (i : Inventory μ) (component : Component) : Bool :=
  (i.find? component).any (·.manager?.isSome)

/-- Registers the update manager of a component that has a record and no manager
yet. -/
def register (component : Component) (manager : μ) : Act (Inventory μ) Unit := do
  match (← get).find? component with
  | none =>
    Effect.log (.noRecord component)
    throw (.state .noRecord)
  | some entry =>
    if entry.manager?.isSome then
      Effect.log (.secondManager component)
      throw (.state .secondManager)
    modify (·.withManager component manager)

/-- Sets the primary update manager. -/
def setPrimary (i : Inventory μ) (manager : μ) : Inventory μ := { i with primary? := some manager }

variable [UpdateManager μ]

/-- Offers a request to update managers in turn: the claiming response or else, if there
is one, the last other response (`last?` before the first manager). -/
def offerEach (eid : Eid) (request : Request) (last? : Option Response) :
    List (Component × μ) → Task (Inventory μ) (Option Response)
  | [] => return last?
  | (component, manager) :: rest => do
    Effect.record (.offered (some component))
    let (handled, manager) := UpdateManager.offer manager eid request
    modify (·.withChanged component manager)
    match handled with
    | .claimed response => return some response
    | .notExpected response => offerEach eid request (some response) rest

/-- Offers a request to the managers of the endpoint's components. -/
def offerComponents (eid : Eid) (request : Request) (last? : Option Response) :
    Task (Inventory μ) Response := do
  match ← offerEach eid request last? ((← get).managersOf (·.eid == eid)) with
  | some response => return response
  | none =>
    Effect.log (.noManager eid request.type request.command)
    return request.reply CompletionCode.commandNotExpected

/-- The response to a request from an endpoint. -/
def dispatch (eid : Eid) (request : Request) : Task (Inventory μ) Response := do
  match (← get).primary? with
  | none => offerComponents eid request none
  | some manager =>
    Effect.record (.offered none)
    let (handled, manager) := UpdateManager.offer manager eid request
    modify ({ · with primary? := some manager })
    match handled with
    | .claimed response => return response
    | .notExpected response => offerComponents eid request (some response)

end Inventory

end TerminusMonitor
