import TerminusMonitor.Proofs.Rounds
import TerminusMonitor.Simulation.Scripted

/-!
How fairly ticks share out the instance IDs of an endpoint among its sensors.

* `readings_asked_in_order`: a tick takes the sensors that are due in the order of their
  keys until the IDs run out. So up to 32 of them all have their turn in each tick;
* `last_sensor_starves`: of more that are always due, those behind are never asked.
-/

namespace TerminusMonitor

variable {μ : Type}

/-- When a monitor that alone uses its pools ticks over a link that sends every message,
it asks the sensors of an endpoint that are due in the order of their keys, as many as the
endpoint has instance IDs that no request is waiting with. These are the messages that it
sends at the tick, in this order, after what else the update sends. Without an update interval
a sensor is due unless its reading is outstanding. So if such sensors and the requests that
are pending are no more than 32, each is asked in each tick; and those are not asked that
have as many before them as there are IDs left. -/
theorem readings_asked_in_order [UpdateManager μ] {policy : RetryPolicy} {interval start : Nat}
    {turns : List (Turn μ)} (own : ∀ t ∈ turns, t.operation.IsOwn) {now : Nat}
    (ticks : (Turn.run turns (.startWith {} policy interval start)).TicksAt now) (eid : Eid) :
    let m := Turn.run turns (.startWith {} policy interval start)
    let update : Turn μ := { operation := .update now }
    let here := m.atTick .reliable now
    let readings := update.readings m eid
    let free := poolSize - here.pendingFor eid
    readings = ((here.dueAt now eid).take free).map (·.key) ∧
      Try.sensors eid (update.looks m) = readings.map (fun key => some key.sensor) ∧
      (∀ attempt ∈ update.looks m, attempt.fault? = none) ∧
      (update.journal m).tries = (update.wentOn m).tries ++ update.looks m ∧
      ((here.sensorsAt eid).Pairwise fun s s' => rank s.key < rank s'.key) ∧
      ((∀ s ∈ here.sensorsAt eid,
          s.updateInterval = 0 ∧ ¬ ∃ key, m.IsPending key (.reading s.key)) →
        readings = ((here.sensorsAt eid).take free).map (·.key)) ∧
      (m.pending.isEmpty = true → m.walks.isEmpty = true →
        here.pendingFor eid = 0 ∧ here.sensorsAt eid = m.sensorsAt eid ∧
          (update.wentOn m).tries = []) := by
  intro m update here readings free
  have alone : m.Alone := (Monitor.Alone.startWith policy interval start).run own
  have asked : readings = ((here.dueAt now eid).take free).map (·.key) :=
    alone.readings_due ticks
  obtain ⟨tries, sent, _⟩ := Turn.update_tries m now .reliable
  refine ⟨asked, Turn.sensors_looks m now eid, sent rfl, tries,
    alone.keyed.atTick.sensorsAt_sorted, ?_, ?_⟩
  · intro ready
    rw [asked, alone.dueAt_eq ticks .reliable ready]
  · intro pending walks
    have same : here = m.withRequests { m.toCorrelator with clock := now } :=
      Monitor.atTick_of_quiet pending walks ticks.forward .reliable
    have nothing : update.wentOn m = [] :=
      Monitor.wentOn_of_quiet pending walks ticks.forward .reliable
    rw [same, nothing]
    exact ⟨Monitor.pendingFor_of_isEmpty pending, rfl, rfl⟩

/-! ### More sensors than instance IDs -/

/-- A terminus is discovered whose records tell of a number of sensors, numbered from 1 on,
and polling starts. -/
def crowding (count : Nat) : List (Turn Scripted) :=
  { operation := .add 1 8 "Rack" } :: { operation := .discover 1 } ::
    (List.range count).map (fun i =>
      let next := if i + 1 = count then 0 else .ofNat (i + 1)
      { operation := .message 8 (FetchRecord.answering 0 next (.temperature (.ofNat (i + 1)))) }) ++
    [{ operation := .startPolling }]

/-- The monitor of a terminus with a number of sensors, before its first tick. -/
def crowded (count : Nat) : Monitor Scripted :=
  Turn.run (crowding count) (.startWith {} {} 250 0)

/-- The keys of a number of sensors. -/
def crowd (count : Nat) : List SensorKey :=
  (List.range count).map fun i => ⟨1, .ofNat (i + 1)⟩

theorem own_crowding (count : Nat) : ∀ t ∈ crowding count, t.operation.IsOwn := by
  intro t mem
  simp only [crowding, List.cons_append, List.mem_cons, List.mem_append, List.mem_map,
    List.not_mem_nil, or_false] at mem
  rcases mem with rfl | rfl | ⟨i, _, rfl⟩ | rfl <;> trivial

/-- There are 33 sensors, and nothing goes on with them. -/
theorem crowded_33 :
    ((crowded 33).clock ≤ 0 ∧ (crowded 33).poller.running = true ∧
      (crowded 33).poller.nextTick ≤ 0) ∧ (crowded 33).poller.interval = 250 ∧
      (crowded 33).pending.isEmpty = true ∧ (crowded 33).walks.isEmpty = true ∧
      (crowded 33).roll = (crowd 33).map fun key => (8, key, 0) := by
  decide +kernel

theorem ticks_crowded : (crowded 33).TicksAt 0 :=
  ⟨crowded_33.1.1, crowded_33.1.2.1, crowded_33.1.2.2⟩

theorem reads_crowded : (crowded 33).Reads 8 (crowd 33) := by
  obtain ⟨_, _, pending, walks, roll⟩ := crowded_33
  refine ⟨(Monitor.Alone.startWith {} 250 0).run (own_crowding 33), walks, roll, ?_⟩
  intro key p found
  exact absurd ⟨p, found, rfl⟩ (Monitor.not_isPending_of_isEmpty pending)

/-- Of 33 sensors the first tick asks all but the last. -/
theorem readings_asked_in_order_crowded :
    let update : Turn Scripted := { operation := .update 0 }
    (∀ t ∈ crowding 33, t.operation.IsOwn) ∧ (crowded 33).TicksAt 0 ∧
      ((crowded 33).sensorsAt 8).map (·.key) = crowd 33 ∧
      update.readings (crowded 33) 8 = crowd 32 ∧
      Try.sensors 8 (update.journal (crowded 33)).tries =
        (crowd 32).map fun key => some key.sensor := by
  obtain ⟨_, _, pending, walks, _⟩ := crowded_33
  have law := readings_asked_in_order (own_crowding 33) ticks_crowded 8
  dsimp only at law ⊢
  rw [← crowded] at law
  obtain ⟨_, sensors, _, tries, _, asked, quiet⟩ := law
  obtain ⟨none, same, nothing⟩ := quiet pending walks
  have keys : ((crowded 33).sensorsAt 8).map (·.key) = crowd 33 := reads_crowded.sensorsAt_keys
  have readings : Turn.readings { operation := .update 0 } (crowded 33) 8 = crowd 32 := by
    refine (asked ?_).trans ?_
    · intro s mem
      refine ⟨reads_crowded.always s (same ▸ mem), ?_⟩
      rintro ⟨key, reading⟩
      exact Monitor.not_isPending_of_isEmpty pending reading
    · rw [none, same, List.map_take]
      exact (congrArg (List.take 32) keys).trans (by decide)
  refine ⟨own_crowding 33, ticks_crowded, keys, readings, ?_⟩
  rw [tries, nothing, List.nil_append, sensors, readings]

/-- 33 rounds of a tick and the answers to its readings. -/
def crowdedRounds : List (Round Scripted) :=
  Round.regular ((List.finRange 32).map (Turn.answer 8)) 250 0 33

/-- As many ticks as there are sensors, each of which comes when all has been answered, do
not ask the last one: no message to its endpoint asks for it, from the start on. -/
theorem last_sensor_starves :
    let turns := crowding 33 ++ crowdedRounds.flatMap Round.turns
    (∀ t ∈ turns, t.operation.IsOwn) ∧
      ((crowded 33).sensorsAt 8).map (·.key) = crowd 33 ∧
      (∀ s ∈ (crowded 33).sensorsAt 8, s.updateInterval = 0) ∧
      crowdedRounds.length = 33 ∧ (crowded 33).Served crowdedRounds ∧
      ⟨1, 33⟩ ∈ crowd 33 ∧
      ⟨1, 33⟩ ∉ (Turn.trace (crowdedRounds.flatMap Round.turns) (crowded 33)).filterMap
        (Deed.reading? 8) ∧
      some 33 ∉ Try.sensors 8 (Turn.history turns (.startWith {} {} 250 0)).tries := by
  obtain ⟨_, interval, pending, _⟩ := crowded_33
  obtain ⟨served, asked, sent⟩ :=
    reads_crowded.readings_rounds pending ticks_crowded List.mem_finRange 33
  rw [interval] at served asked sent
  have first : ∀ key ∈ (crowd 33).take poolSize, key.sensor ≠ 33 := by decide +kernel
  have others {key : SensorKey}
      (mem : key ∈ (List.replicate 33 ((crowd 33).take poolSize)).flatten) : key.sensor ≠ 33 := by
    obtain ⟨asked, repeated, mem⟩ := List.mem_flatten.mp mem
    rw [List.eq_of_mem_replicate repeated] at mem
    exact first key mem
  refine ⟨?_, reads_crowded.sensorsAt_keys, reads_crowded.always, rfl, served, by decide, ?_, ?_⟩
  · refine List.forall_mem_append.mpr ⟨own_crowding 33, Round.own_regular ?_ 250 0 33⟩
    exact List.forall_mem_map.mpr fun _ _ => trivial
  · rw [crowdedRounds, asked]
    exact fun mem => others mem rfl
  · have before : some 33 ∉ Try.sensors 8
        (Turn.history (crowding 33) (.startWith {} {} 250 0)).tries := by
      decide +kernel
    rw [Turn.history_append, Journal.tries_append, Try.sensors_append, List.mem_append, not_or]
    refine ⟨before, ?_⟩
    intro mem
    obtain ⟨key, asks, same⟩ := List.mem_map.mp (sent ▸ mem)
    exact others asks (Option.some.inj same)

end TerminusMonitor
