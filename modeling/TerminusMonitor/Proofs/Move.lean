import TerminusMonitor.Proofs.Correlator
import TerminusMonitor.Proofs.Operation
import TerminusMonitor.Proofs.Settling

/-!
The single steps of a monitor.

A turn is a sequence of moves, each of which changes little; `Move` lists them with
what has to hold for each. Between moves the monitor may have outcomes in hand, which
left the requests but were not taken in yet.

* `Moves.preserves`: what each move preserves holds after all turns;
* `Keyed`: sensors are filed under their own keys;
* `Turn.moves`: a turn of a keyed monitor is a sequence of moves with its deeds.
-/

namespace TerminusMonitor

variable {μ : Type}

/-- A monitor with the outcomes that it has in hand. -/
structure Scene (μ : Type) where
  monitor : Monitor μ
  hand : List (Completion Purpose) := []

namespace Monitor

/-- The monitor with other requests and pools. -/
def withRequests (m : Monitor μ) (c : Correlator Purpose) : Monitor μ :=
  { m with toWatch := { m.toWatch with toCorrelator := c } }

/-- The monitor with another terminus at a TID, if there was one. -/
def modifyTerminus (m : Monitor μ) (tid : Tid) (f : Terminus → Terminus) : Monitor μ :=
  { m with termini := m.termini.modify tid f }

/-- Two monitors that differ in the clock, the inventory and the course of polling at
most. -/
structure Alike (m m' : Monitor μ) : Prop where
  pending : m'.pending = m.pending
  ids : m'.ids = m.ids
  policy : m'.policy = m.policy
  termini : m'.termini = m.termini
  outstanding : m'.poller.outstanding = m.poller.outstanding
  walks : m'.walks = m.walks
  mapping : m'.mapping = m.mapping

end Monitor

/-- A step of a monitor, with what it does. -/
inductive Move : Scene μ → List Deed → Scene μ → Prop where
  | aside {m m' : Monitor μ} {hand} (alike : m.Alike m') : Move ⟨m, hand⟩ [] ⟨m', hand⟩
  -- Changes of the termini, the mappings and the pools.
  | placed {m : Monitor μ} {hand} {tid : Tid} {eid : Eid} {name : String}
      (unknown : m.termini.get? tid = none) :
      Move ⟨m, hand⟩ [.placed tid eid]
        ⟨{ m with termini := m.termini.insert tid { tid, eid, name } }, hand⟩
  | reached {m : Monitor μ} {hand} {tid : Tid} :
      Move ⟨m, hand⟩ [] ⟨m.modifyTerminus tid fun t => { t with reachable := true }, hand⟩
  | lost {m : Monitor μ} {hand} {tid : Tid} :
      Move ⟨m, hand⟩ [.lost tid]
        ⟨m.modifyTerminus tid fun t =>
          { t with sensors := t.sensors.mapValues fun _ s => s.lose, reachable := false }, hand⟩
  | removed {m : Monitor μ} {hand} {tid : Tid} {terminus : Terminus} {inventory : Inventory μ}
      (known : m.termini.get? tid = some terminus) :
      Move ⟨m, hand⟩ [.removed tid]
        ⟨{ m with
            termini := m.termini.erase tid
            walks := m.walks.erase tid
            poller := m.poller.forget tid
            inventory }, hand⟩
  | mapped {m : Monitor μ} {hand} {mapping : Mapping} :
      Move ⟨m, hand⟩ [.mapped mapping] ⟨{ m with mapping }, hand⟩
  | shared {m : Monitor μ} {hand} {ids : Pools} :
      Move ⟨m, hand⟩ [.shared] ⟨{ m with ids }, hand⟩
  | dropped {m : Monitor μ} {hand} {eid : Eid} (unused : m.pendingFor eid = 0) :
      Move ⟨m, hand⟩ [] ⟨{ m with ids := m.ids.dropped eid }, hand⟩
  -- Outcomes. The correlator gives out several at a time only when they expire.
  | renewed {m : Monitor μ} {hand} {key : RequestKey} {left : Nat} :
      Move ⟨m, hand⟩ [] ⟨m.withRequests (m.renewed key left), hand⟩
  | shed {m : Monitor μ} {hand} {completion : Completion Purpose} {p : Pending Purpose}
      (pending : m.pending.get? completion.key = some p)
      (cookie : completion.cookie = p.cookie)
      (late : hand = [] ∨ completion.result = .error .timedOut) :
      Move ⟨m, hand⟩ [] ⟨m.withRequests (m.closed completion.key), hand ++ [completion]⟩
  | settled {m : Monitor μ} {hand} {completion : Completion Purpose} :
      Move ⟨m, completion :: hand⟩ [.settled completion] ⟨m.settled completion, hand⟩
  -- Walks and readings. Requests are registered when no outcome is in hand.
  | begun {m : Monitor μ} {hand} {tid : Tid} {terminus : Terminus}
      (known : m.termini.get? tid = some terminus) (idle : m.walks.get? tid = none) :
      Move ⟨m, hand⟩ [.begun tid] ⟨{ m with walks := m.walks.insert tid {} }, hand⟩
  | strayed {m : Monitor μ} {hand} {tid : Tid} (unknown : m.termini.get? tid = none) :
      Move ⟨m, hand⟩ [] ⟨{ m with walks := m.walks.erase tid }, hand⟩
  | asked {m : Monitor μ} {tid : Tid} {terminus : Terminus} {walk : Walk}
      {iid : InstanceId} {request : Request} {message : List UInt8}
      (known : m.termini.get? tid = some terminus) (found : m.walks.get? tid = some walk)
      (waiting : walk.inFlight = false)
      (free : (m.ids.mask terminus.eid).lowestFree? = some iid)
      (fresh : m.pending.get? ⟨terminus.eid, iid⟩ = none) :
      Move ⟨m, []⟩ [.asked ⟨terminus.eid, iid⟩ tid walk.next]
        ⟨{ m.withRequests
              (m.opened ⟨terminus.eid, iid⟩ request message (.record tid walk.next)) with
            walks := m.walks.modify tid fun w => { w with inFlight := true } }, []⟩
  | unsent {m : Monitor μ} {tid : Tid} {terminus : Terminus} {walk : Walk}
      {iid : InstanceId} {fault : TransportFault}
      (known : m.termini.get? tid = some terminus) (found : m.walks.get? tid = some walk)
      (waiting : walk.inFlight = false)
      (free : (m.ids.mask terminus.eid).lowestFree? = some iid) :
      Move ⟨m, []⟩ [.unsent tid walk.next fault]
        ⟨(m.withRequests (m.refused terminus.eid iid)).finished tid, []⟩
  | refused {m : Monitor μ} {eid : Eid} {iid : InstanceId}
      (free : (m.ids.mask eid).lowestFree? = some iid) :
      Move ⟨m, []⟩ [] ⟨m.withRequests (m.refused eid iid), []⟩
  | polled {m : Monitor μ} {s : NumericSensor} {terminus : Terminus} {now : Nat}
      {iid : InstanceId} {request : Request} {message : List UInt8}
      (known : m.termini.get? s.key.tid = some terminus)
      (listed : terminus.sensors.get? s.key.sensor = some s)
      (reachable : terminus.reachable = true)
      (due : m.poller.isDue s now = true)
      (free : (m.ids.mask terminus.eid).lowestFree? = some iid)
      (fresh : m.pending.get? ⟨terminus.eid, iid⟩ = none) :
      Move ⟨m, []⟩ [.polled ⟨terminus.eid, iid⟩ s.key]
        ⟨{ m.withRequests (m.opened ⟨terminus.eid, iid⟩ request message (.reading s.key)) with
            poller := m.poller.asked s.key now }, []⟩
  | failed {m : Monitor μ} {s : NumericSensor} {terminus : Terminus}
      {iid : InstanceId}
      (known : m.termini.get? s.key.tid = some terminus)
      (listed : terminus.sensors.get? s.key.sensor = some s)
      (free : (m.ids.mask terminus.eid).lowestFree? = some iid) :
      Move ⟨m, []⟩ []
        ⟨{ m with
            toWatch := (m.withRequests (m.refused terminus.eid iid)).setSensor s.key s.fail },
          []⟩
  | set {m : Monitor μ} {eid : Eid} {path property : String}
      {iid : InstanceId} {request : Request} {message : List UInt8}
      (free : (m.ids.mask eid).lowestFree? = some iid)
      (fresh : m.pending.get? ⟨eid, iid⟩ = none) :
      Move ⟨m, []⟩ []
        ⟨m.withRequests (m.opened ⟨eid, iid⟩ request message (.effecter path property)), []⟩

/-- Steps of a monitor one after the other, with what they do. -/
inductive Moves : Scene μ → List Deed → Scene μ → Prop where
  | done {s : Scene μ} : Moves s [] s
  | step {s s' s'' : Scene μ} {deeds later : List Deed}
      (move : Move s deeds s') (rest : Moves s' later s'') : Moves s (deeds ++ later) s''

namespace Moves

variable {s s' s'' : Scene μ} {deeds later : List Deed}

theorem single (move : Move s deeds s') : Moves s deeds s' := by
  simpa using Moves.step move .done

theorem trans (first : Moves s deeds s') (second : Moves s' later s'') :
    Moves s (deeds ++ later) s'' := by
  induction first with
  | done => exact second
  | step move _ ih => rw [List.append_assoc]; exact .step move (ih second)

/-- What each move keeps up, as it adds to what was done, moves keep up. -/
theorem records (moves : Moves s deeds s') (inv : List Deed → Scene μ → Prop)
    (step : ∀ {past s deeds s'}, Move s deeds s' → inv past s → inv (past ++ deeds) s')
    (past : List Deed) (start : inv past s) : inv (past ++ deeds) s' := by
  induction moves generalizing past with
  | done => rwa [List.append_nil]
  | step move _ ih => rw [← List.append_assoc]; exact ih _ (step move start)

/-- What each move preserves, moves preserve. -/
theorem preserves (moves : Moves s deeds s') (inv : Scene μ → Prop)
    (step : ∀ {s deeds s'}, Move s deeds s' → inv s → inv s') (start : inv s) : inv s' :=
  moves.records (fun _ => inv) (fun move => step move) [] start

end Moves

/-! ### Requests -/

/-- Whether a request is pending for a purpose. -/
def Monitor.IsPending (m : Monitor μ) (key : RequestKey) (purpose : Purpose) : Prop :=
  ∃ p, m.pending.get? key = some p ∧ p.cookie = purpose

theorem Monitor.not_isPending_of_isEmpty {m : Monitor μ} {key : RequestKey} {purpose : Purpose}
    (empty : m.pending.isEmpty = true) : ¬ m.IsPending key purpose := by
  rintro ⟨p, pending, _⟩
  rw [← Table.mem_entries_iff, List.isEmpty_iff.mp empty] at pending
  cases pending

namespace Scene

variable {m m' : Monitor μ} {hand : List (Completion Purpose)}

/-- The requests that are pending or in hand, with what they are for. -/
def requests (s : Scene μ) : List (RequestKey × Purpose) :=
  s.monitor.pending.entries.map (fun e => (e.1, e.2.cookie)) ++
    s.hand.map fun completion => (completion.key, completion.cookie)

/-- With no outcome in hand, the requests are those that are pending. -/
theorem mem_requests {key : RequestKey} {purpose : Purpose} :
    (key, purpose) ∈ requests ⟨m, []⟩ ↔ m.IsPending key purpose := by
  simp only [requests, Monitor.IsPending, List.map_nil, List.append_nil, List.mem_map, Prod.exists,
    Prod.mk.injEq, ← Table.mem_entries_iff]
  constructor
  · rintro ⟨_, p, mem, rfl, cookie⟩
    exact ⟨p, mem, cookie⟩
  · rintro ⟨p, mem, cookie⟩
    exact ⟨key, p, mem, rfl, cookie⟩

theorem key_notMem_requests {key : RequestKey} (fresh : m.pending.get? key = none) :
    key ∉ (requests ⟨m, []⟩).map Prod.fst := by
  intro mem
  obtain ⟨⟨_, purpose⟩, listed, rfl⟩ := List.mem_map.mp mem
  obtain ⟨p, pending, _⟩ := mem_requests.mp listed
  cases fresh.symm.trans pending

theorem requests_congr (same : m'.pending = m.pending) :
    requests ⟨m', hand⟩ = requests ⟨m, hand⟩ := by
  simp only [requests, same]

theorem requests_renewed {key : RequestKey} {left : Nat} :
    requests ⟨m.withRequests (m.renewed key left), hand⟩ = requests ⟨m, hand⟩ :=
  congrArg (· ++ _) (Table.map_entries_modify fun _ _ => rfl)

/-- A request that is shed is in hand. -/
theorem requests_shed {completion : Completion Purpose} {p : Pending Purpose}
    (pending : m.pending.get? completion.key = some p) (cookie : completion.cookie = p.cookie) :
    (requests ⟨m.withRequests (m.closed completion.key), hand ++ [completion]⟩).Perm
      (requests ⟨m, hand⟩) := by
  have erased := (Table.entries_erase_perm pending).map fun e => (e.1, e.2.cookie)
  simp only [requests, List.map_append, List.map_cons, List.map_nil, cookie]
  rw [← List.append_assoc]
  refine List.perm_append_comm.trans (.trans ?_ (erased.append_right _).symm)
  exact .refl _

/-- A request that is registered is pending. -/
theorem requests_opened {key : RequestKey} {p : Pending Purpose}
    (fresh : m.pending.get? key = none) (opened : m'.pending = m.pending.insert key p) :
    (requests ⟨m', hand⟩).Perm ((key, p.cookie) :: requests ⟨m, hand⟩) := by
  simp only [requests, opened]
  exact ((Table.entries_insert_perm fresh).map fun e => (e.1, e.2.cookie)).append_right _

/-- A request whose outcome was taken in is over. -/
theorem requests_settled (m : Monitor μ) (hand : List (Completion Purpose))
    (completion : Completion Purpose) :
    (requests ⟨m, completion :: hand⟩).Perm
      ((completion.key, completion.cookie) :: requests ⟨m.settled completion, hand⟩) := by
  simp only [requests, Monitor.settled_toCorrelator, List.map_cons]
  exact List.perm_middle

end Scene

/-! ### Sensors under their own keys -/

namespace Monitor

/-- Each sensor is filed under its own key, with its terminus as in a walk. -/
structure Keyed (m : Monitor μ) : Prop where
  termini : ∀ {tid terminus sensor s}, m.termini.get? tid = some terminus →
    terminus.sensors.get? sensor = some s → s.key = ⟨tid, sensor⟩
  walks : ∀ {tid walk sensor s}, m.walks.get? tid = some walk →
    walk.sensors.get? sensor = some s → s.key = ⟨tid, sensor⟩

theorem newSensor_key (m : Monitor μ) (tid : Tid) (r : NumericSensorRecord) :
    (m.newSensor tid r).key = ⟨tid, r.sensor⟩ := by
  unfold newSensor
  split <;> rfl

namespace Keyed

variable {m : Monitor μ}

theorem modifyTerminus {tid : Tid} {f : Terminus → Terminus} (keyed : m.Keyed)
    (filed : ∀ {terminus sensor s}, m.termini.get? tid = some terminus →
      (f terminus).sensors.get? sensor = some s → s.key = ⟨tid, sensor⟩) :
    (m.modifyTerminus tid f).Keyed where
  termini {tid' terminus sensor s} known listed := by
    rcases Table.get?_modify_some known with ⟨rfl, terminus, before, rfl⟩ | before
    · exact filed before listed
    · exact keyed.termini before listed
  walks := keyed.walks

theorem modifyWalk {tid : Tid} {f : Walk → Walk} (keyed : m.Keyed)
    (filed : ∀ {walk sensor s}, m.walks.get? tid = some walk →
      (f walk).sensors.get? sensor = some s → s.key = ⟨tid, sensor⟩) :
    Keyed { m with walks := m.walks.modify tid f } where
  termini := keyed.termini
  walks {tid' walk sensor s} found listed := by
    rcases Table.get?_modify_some found with ⟨rfl, walk, before, rfl⟩ | before
    · exact filed before listed
    · exact keyed.walks before listed

theorem eraseWalk {tid : Tid} (keyed : m.Keyed) : Keyed { m with walks := m.walks.erase tid } where
  termini := keyed.termini
  walks found listed := keyed.walks (Table.get?_erase_some found) listed

theorem finished {tid : Tid} (keyed : m.Keyed) : (m.finished tid).Keyed := by
  unfold Monitor.finished
  split
  next => exact keyed
  next walk found =>
    exact (keyed.modifyTerminus fun _ listed => keyed.walks found listed).eraseWalk

theorem noted {tid : Tid} {record : Record} (keyed : m.Keyed) : (m.noted tid record).Keyed := by
  unfold Monitor.noted
  split
  next => exact keyed
  next r _ =>
    refine keyed.modifyWalk ?_
    intro walk sensor s found listed
    have own := newSensor_key m tid r
    rcases Table.get?_insert_some listed with ⟨rfl, rfl⟩ | listed
    · rw [own]
    · exact keyed.walks found listed

theorem recorded {tid : Tid} {result : Except Fault Response} (keyed : m.Keyed) :
    (m.recorded tid result).Keyed := by
  unfold Monitor.recorded
  split
  next => exact keyed
  next =>
    split
    next => exact keyed.finished
    next =>
      dsimp only
      split
      next => exact keyed.noted.finished
      next => exact keyed.noted.modifyWalk fun found listed => keyed.noted.walks found listed

theorem setSensor {key : SensorKey} {s : NumericSensor} (keyed : m.Keyed) (own : s.key = key) :
    Keyed { m with toWatch := m.toWatch.setSensor key s } :=
  keyed.modifyTerminus fun {terminus sensor s'} known listed => by
    rcases Table.get?_modify_some listed with ⟨rfl, _, _, rfl⟩ | before
    · exact own
    · exact keyed.termini known before

theorem settled {completion : Completion Purpose} (keyed : m.Keyed) :
    (m.settled completion).Keyed := by
  obtain ⟨key, cookie, result⟩ := completion
  cases cookie with
  | reading sensor =>
    simp only [Monitor.settled, Watch.settled]
    split
    next => exact ⟨keyed.termini, keyed.walks⟩
    next s known =>
      refine setSensor (m := { m with poller := _ }) ⟨keyed.termini, keyed.walks⟩ ?_
      obtain ⟨terminus, known, listed⟩ := Option.bind_eq_some_iff.mp known
      rw [NumericSensor.taken_key]
      exact keyed.termini known listed
  | record => exact keyed.recorded
  | effecter => exact keyed

theorem move {s s' : Scene μ} {deeds : List Deed} (move : Move s deeds s')
    (keyed : s.monitor.Keyed) : s'.monitor.Keyed := by
  cases move with
  | @aside m _ _ alike =>
    constructor
    · intro tid terminus sensor s known
      have same : m.termini.get? tid = some terminus := alike.termini ▸ known
      exact keyed.termini same
    · intro tid walk sensor s found
      have same : m.walks.get? tid = some walk := alike.walks ▸ found
      exact keyed.walks same
  | placed unknown =>
    refine ⟨?_, keyed.walks⟩
    intro tid terminus sensor s known listed
    rcases Table.get?_insert_some known with ⟨rfl, rfl⟩ | known
    · cases listed
    · exact keyed.termini known listed
  | reached => exact keyed.modifyTerminus fun known listed => keyed.termini known listed
  | lost =>
    refine keyed.modifyTerminus ?_
    intro terminus sensor s known listed
    rw [Table.get?_mapValues] at listed
    obtain ⟨s, listed', rfl⟩ := Option.map_eq_some_iff.mp listed
    have own := keyed.termini known listed'
    exact own
  | removed known =>
    refine ⟨?_, keyed.eraseWalk.walks⟩
    intro tid terminus sensor s known listed
    exact keyed.termini (Table.get?_erase_some known) listed
  | mapped => exact ⟨keyed.termini, keyed.walks⟩
  | shared => exact ⟨keyed.termini, keyed.walks⟩
  | dropped => exact ⟨keyed.termini, keyed.walks⟩
  | renewed => exact ⟨keyed.termini, keyed.walks⟩
  | shed => exact ⟨keyed.termini, keyed.walks⟩
  | settled => exact keyed.settled
  | begun =>
    refine ⟨keyed.termini, ?_⟩
    intro tid walk sensor s found listed
    rcases Table.get?_insert_some found with ⟨rfl, rfl⟩ | found
    · cases listed
    · exact keyed.walks found listed
  | strayed => exact keyed.eraseWalk
  | asked =>
    exact modifyWalk (m := Monitor.withRequests _ _) ⟨keyed.termini, keyed.walks⟩
      fun found listed => keyed.walks found listed
  | unsent => exact finished (m := Monitor.withRequests _ _) ⟨keyed.termini, keyed.walks⟩
  | refused => exact ⟨keyed.termini, keyed.walks⟩
  | polled => exact ⟨keyed.termini, keyed.walks⟩
  | failed =>
    exact setSensor (m := Monitor.withRequests _ _) ⟨keyed.termini, keyed.walks⟩ rfl
  | set => exact ⟨keyed.termini, keyed.walks⟩

end Keyed

end Monitor

end TerminusMonitor
