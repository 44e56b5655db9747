import TerminusMonitor.Proofs.Tick
import TerminusMonitor.Simulation.Peer

/-!
Rounds of a tick and the answers to all its readings.

A peer that answers each request for a reading leaves the monitor after a round as it was
before, but for the time (`Monitor.Reads.round`). So each round asks the same sensors, the
first 32 of them (`Monitor.Reads.readings_rounds`).

* `Correlator.ends_receive_answer`: a response completes the request that it answers;
* `Watch.roll_settled`: a reading does not change what a tick looks at;
* `Monitor.Reads.answers`, `Monitor.Reads.updated`: what answers and ticks leave;
* `Monitor.Reads.tries_answers`, `Monitor.Reads.sensors_update`: what is sent for them.
-/

namespace TerminusMonitor

variable {μ : Type} {link : Link} {journal : Journal}

/-! ### Answers -/

namespace Correlator

variable {κ : Type} {c : Correlator κ} {eid : Eid} {iid : InstanceId} {bytes : List UInt8}

/-- A response completes the request that it answers. -/
theorem ends_receive_answer {header : Header} {p : Pending κ}
    (reads : Header.ofBytes bytes = .ok header) (response : header.request = false)
    (names : InstanceId.ofByte? header.instanceId = some iid)
    (pending : c.pending.get? ⟨eid, iid⟩ = some p) (type : p.type = header.type)
    (command : p.command = header.command) :
    Task.Ends (receive eid bytes) c link journal fun completion? c' _ =>
      c' = c.closed ⟨eid, iid⟩ ∧ ∃ result, completion? = some ⟨⟨eid, iid⟩, p.cookie, result⟩ := by
  simp only [receive, reads, response, names, Bool.false_eq_true, if_false, Task.ends_bind,
    Task.ends_get, pending, type, command, ne_eq, not_true_eq_false, or_self]
  refine ends_finish.mono ?_
  rintro _ _ _ rfl
  cases Response.ofBytes bytes with
  | error fault => exact ⟨rfl, _, rfl⟩
  | ok response => exact ⟨rfl, _, rfl⟩

/-- A response that answers none is ignored. -/
theorem ends_receive_stray {header : Header}
    (reads : Header.ofBytes bytes = .ok header) (response : header.request = false)
    (names : InstanceId.ofByte? header.instanceId = some iid)
    (absent : c.pending.get? ⟨eid, iid⟩ = none) :
    Task.Ends (receive eid bytes) c link journal fun completion? c' _ =>
      completion? = none ∧ c' = c := by
  simp only [receive, reads, response, names, Bool.false_eq_true, if_false, Task.ends_bind,
    Task.ends_get, absent, Task.ends_lift, Effect.ends_log, Task.ends_pure]
  exact ⟨trivial, trivial⟩

end Correlator

/-- The message that answers a request for a reading: that the sensor is not available. -/
def ReadSensor.answer (iid : InstanceId) : List UInt8 := answering iid.toByte .unavailable (.u8 0)

theorem ReadSensor.header_answer (iid : InstanceId) :
    Header.ofBytes (answer iid) = .ok
      { request := false, datagram := false, instanceId := iid.toByte, type := platformType
        command := Coded.code Command.getSensorReading } ∧
      InstanceId.ofByte? iid.toByte = some iid := by
  revert iid
  decide

/-! ### What a tick looks at -/

/-- The endpoint, key and update interval of each sensor that a tick looks at. -/
def Watch.roll {κ : Type} (w : Watch κ) : List (Eid × SensorKey × Nat) :=
  w.polled.map fun e => (e.1, e.2.key, e.2.updateInterval)

theorem NumericSensor.taken_updateInterval {s : NumericSensor} {result : Except Fault Response} :
    (s.taken result).updateInterval = s.updateInterval := by
  unfold taken
  split
  next =>
    unfold after
    split
    · split <;> rfl
    · rfl
    · rfl
  next => rfl

/-- A reading changes nothing of it. -/
theorem Watch.roll_settled {κ : Type} (w : Watch κ) (key : SensorKey)
    (result : Except Fault Response) : (w.settled key result).roll = w.roll := by
  have sensors (t : Terminus) :
      (t.sensors.modify key.sensor (·.taken result)).entries.map
          (fun e => (t.eid, e.2.key, e.2.updateInterval)) =
        t.sensors.entries.map fun e => (t.eid, e.2.key, e.2.updateInterval) := by
    refine Table.map_entries_modify ?_
    intro _ s
    simp only [NumericSensor.taken_key, NumericSensor.taken_updateInterval]
  simp only [roll, polled, termini_settled, List.map_flatMap]
  simp only [Table.values, List.flatMap_def, List.map_map]
  refine congrArg _ (Table.map_entries_modify ?_)
  intro _ t
  simp only [Function.comp_apply]
  split
  next => rw [List.map_map, List.map_map]; exact sensors t
  next => rfl

/-! ### Requests of a tick -/

/-- Whether a request is for a reading from an endpoint. -/
def Pending.Reads (p : Pending Purpose) (key : RequestKey) (eid : Eid) : Prop :=
  key.eid = eid ∧ p.type = platformType ∧ p.command = Coded.code Command.getSensorReading ∧
    ∃ sensor, p.cookie = .reading sensor

namespace Watch

/-- A watch whose tick begins: the time goes on, and the next tick is an interval later. -/
def tickBegun {κ : Type} (w : Watch κ) (now : Nat) : Watch κ :=
  { w with clock := now, poller := { w.poller with nextTick := timeAfter now w.poller.interval } }

/-- Two watches that differ in requests for readings from an endpoint, and in the notes of
the sensors that were asked. -/
structure Asks (eid : Eid) (w w' : Watch Purpose) : Prop where
  termini : w'.termini = w.termini
  clock : w'.clock = w.clock
  interval : w'.poller.interval = w.poller.interval
  running : w'.poller.running = w.poller.running
  nextTick : w'.poller.nextTick = w.poller.nextTick
  requests : ∀ {key p}, w'.pending.get? key = some p →
    w.pending.get? key = some p ∨ p.Reads key eid

namespace Asks

variable {eid : Eid} {w w' w'' : Watch Purpose}

theorem refl : w.Asks eid w := ⟨rfl, rfl, rfl, rfl, rfl, .inl⟩

theorem trans (first : w.Asks eid w') (second : w'.Asks eid w'') : w.Asks eid w'' where
  termini := second.termini.trans first.termini
  clock := second.clock.trans first.clock
  interval := second.interval.trans first.interval
  running := second.running.trans first.running
  nextTick := second.nextTick.trans first.nextTick
  requests found := (second.requests found).elim first.requests .inr

theorem look {now : Nat} {s : NumericSensor} {deeds : List Deed}
    (look : Look w now eid s deeds w') : w.Asks eid w' := by
  cases look with
  | idle => exact refl
  | full => exact refl
  | asked =>
    refine ⟨rfl, rfl, rfl, rfl, rfl, ?_⟩
    intro key p found
    simp only [Correlator.opened, Table.get?_insert] at found
    split at found
    next same => cases found; exact .inr ⟨congrArg RequestKey.eid same, rfl, rfl, _, rfl⟩
    next => exact .inl found

end Asks

theorem asks_pollSensors {eid : Eid} {sensors : List (Eid × NumericSensor)}
    {others : RequestKey → Prop} (w : Watch Purpose) (accounts : w.Accounts others)
    (home : ∀ e ∈ sensors, e.1 = eid) (now : Nat) (journal : Journal) :
    Act.Ends (pollSensors .reading now sensors) w Link.reliable journal fun result w' _ =>
      result = .ok () ∧ w.Asks eid w' := by
  induction sensors generalizing w journal with
  | nil => exact ⟨rfl, .refl⟩
  | cons e rest ih =>
    obtain ⟨here, homeRest⟩ := List.forall_mem_cons.mp home
    rw [pollSensors, Act.ends_bind]
    refine (ends_look accounts journal now e.1 e.2).mono ?_
    rintro _ w₁ _ ⟨rfl, look⟩
    refine (ih w₁ (look.accounts accounts) homeRest _).mono ?_
    rintro _ w₂ _ ⟨rfl, asks⟩
    exact ⟨rfl, (here ▸ Asks.look look).trans asks⟩

end Watch

/-! ### Rounds -/

/-- An update at a time, and the turns that follow until the next one. -/
structure Round (μ : Type) where
  now : Nat
  rest : List (Turn μ)

namespace Round

/-- The turns of a round. -/
def turns (round : Round μ) : List (Turn μ) := { operation := .update round.now } :: round.rest

/-- Rounds at an interval from a time on, with the same turns after each update. -/
def regular (rest : List (Turn μ)) (interval : Nat) : Nat → Nat → List (Round μ)
  | _, 0 => []
  | now, count + 1 => { now, rest } :: regular rest interval (now + interval) count

theorem own_regular {rest : List (Turn μ)} (own : ∀ t ∈ rest, t.operation.IsOwn)
    (interval now count : Nat) :
    ∀ t ∈ (regular rest interval now count).flatMap turns, t.operation.IsOwn := by
  induction count generalizing now with
  | zero => exact List.forall_mem_nil _
  | succ count ih =>
    intro t mem
    rw [regular, List.flatMap_cons, turns, List.cons_append, List.mem_cons, List.mem_append] at mem
    rcases mem with rfl | answers | later
    · trivial
    · exact own t answers
    · exact ih (now + interval) t later

end Round

/-- Whether the update of each round has a tick, and comes when no request is pending. -/
def Monitor.Served [UpdateManager μ] (m : Monitor μ) : List (Round μ) → Prop
  | [] => True
  | round :: rest =>
    m.TicksAt round.now ∧ m.pending.isEmpty = true ∧ Served (Turn.run round.turns m) rest

/-- The answer to the request for a reading with an instance ID. -/
def Turn.answer (eid : Eid) (iid : InstanceId) : Turn μ :=
  { operation := .message eid (ReadSensor.answer iid) }

/-! ### A peer that answers -/

namespace Monitor

/-- A monitor with nothing but readings going on, all with one endpoint and of sensors that
are to be asked in each tick. -/
structure Reads (m : Monitor μ) (eid : Eid) (sensors : List SensorKey) : Prop where
  alone : m.Alone
  walks : m.walks.isEmpty = true
  roll : m.roll = sensors.map fun key => (eid, key, 0)
  requests : ∀ {key p}, m.pending.get? key = some p → p.Reads key eid

namespace Reads

variable {m : Monitor μ} {eid : Eid} {iid : InstanceId} {sensors : List SensorKey}

/-- Each sensor that a tick looks at is at the endpoint, and to be asked in each tick. -/
theorem home (reads : m.Reads eid sensors) {e : Eid × NumericSensor} (mem : e ∈ m.polled) :
    e.1 = eid ∧ e.2.key ∈ sensors ∧ e.2.updateInterval = 0 := by
  have listed : (e.1, e.2.key, e.2.updateInterval) ∈ m.roll := List.mem_map_of_mem mem
  rw [reads.roll] at listed
  obtain ⟨key, mem, eq⟩ := List.mem_map.mp listed
  simp only [Prod.mk.injEq] at eq
  obtain ⟨rfl, rfl, always⟩ := eq
  exact ⟨rfl, mem, always.symm⟩

theorem sensorsAt_keys (reads : m.Reads eid sensors) : (m.sensorsAt eid).map (·.key) = sensors := by
  have all : m.sensorsAt eid = m.polled.map (·.2) := by
    rw [Watch.sensorsAt, NumericSensor.homedAt, ← List.filterMap_eq_map]
    refine List.filterMap_congr ?_
    intro e mem
    simp [(reads.home mem).1]
  have keys := congrArg (List.map fun e => e.2.1) reads.roll
  rw [Watch.roll, List.map_map, List.map_map] at keys
  rw [all, List.map_map]
  exact keys.trans (List.map_id sensors)

theorem always (reads : m.Reads eid sensors) : ∀ s ∈ m.sensorsAt eid, s.updateInterval = 0 := by
  intro s mem
  exact (reads.home (NumericSensor.mem_homedAt.mp mem)).2.2

/-- An answer leaves over all requests but its own, and nothing is sent for it. -/
theorem ends_answer [UpdateManager μ] (reads : m.Reads eid sensors) (iid : InstanceId) (link : Link)
    (journal : Journal) :
    Act.Ends (onMessage eid (ReadSensor.answer iid)) m link journal fun _ m' journal' =>
      journal'.tries = journal.tries ∧
        m'.walks = m.walks ∧ m'.roll = m.roll ∧ m'.clock = m.clock ∧ m.poller.Eased m'.poller ∧
        ∀ {key p}, m'.pending.get? key = some p →
          key ≠ ⟨eid, iid⟩ ∧ m.pending.get? key = some p := by
  obtain ⟨header, names⟩ := ReadSensor.header_answer iid
  have receives : (Correlator.receive eid (ReadSensor.answer iid) :
      Task (Correlator Purpose) _).Adds Event.IsSilent :=
    Correlator.adds_receive (fun _ => trivial) (fun _ => trivial) eid _
  simp only [onMessage, header, onResponse, Bool.false_eq_true, if_false, Act.ends_bind,
    ends_onRequests, Act.ends_ofTask]
  cases pending : m.pending.get? ⟨eid, iid⟩ with
  | none =>
    refine ((Correlator.ends_receive_stray header rfl names pending).and (receives _ _ _)).mono ?_
    rintro _ _ _ ⟨⟨rfl, rfl⟩, grows⟩
    refine ⟨grows.tries, rfl, rfl, rfl, .refl _, ?_⟩
    intro key p found
    refine ⟨?_, found⟩
    rintro rfl
    cases pending.symm.trans found
  | some p =>
    obtain ⟨_, type, command, sensor, cookie⟩ := reads.requests pending
    refine ((Correlator.ends_receive_answer header rfl names pending type command).and
      (receives _ _ _)).mono ?_
    rintro _ _ journal₁ ⟨⟨rfl, result, rfl⟩, grows⟩
    have completes : (complete ⟨⟨eid, iid⟩, p.cookie, result⟩ : Task (Monitor μ) Unit).Adds
        Event.IsSilent :=
      adds_complete (fun _ => trivial) (fun _ _ => trivial) (fun _ => trivial) _
    simp only [Act.ends_bind, Act.ends_ofTask]
    refine (ends_complete.and (completes _ link journal₁)).mono ?_
    rintro _ m₁ journal₂ ⟨taken, grows'⟩
    have requests : m₁.toCorrelator = m.closed ⟨eid, iid⟩ := by
      rw [taken, settled_toCorrelator]
      rfl
    have clock : m₁.clock = m.clock := by rw [requests]; rfl
    have eased : m.poller.Eased m₁.poller := by
      rw [taken]
      exact eased_settled (m := m.withRequests (m.closed ⟨eid, iid⟩))
    rw [cookie] at taken
    have walks : m₁.walks = m.walks := by rw [taken]; rfl
    have roll : m₁.roll = m.roll := by rw [taken]; exact Watch.roll_settled _ sensor result
    refine (ends_advance_idle (walks ▸ reads.walks)).mono ?_
    rintro _ _ _ ⟨rfl, rfl⟩
    refine ⟨grows'.tries.trans grows.tries, walks, roll, clock, eased, ?_⟩
    intro key p' found
    rw [requests] at found
    simp only [Correlator.closed, Table.get?_erase] at found
    split at found
    next => cases found
    next other => exact ⟨other, found⟩

theorem ends_update {now : Nat} (reads : m.Reads eid sensors) (quiet : m.pending.isEmpty = true)
    (ticks : m.TicksAt now) :
    Act.Ends (Monitor.update now) m Link.reliable [] fun _ m' _ =>
      m'.walks = m.walks ∧ (m.tickBegun now).Asks eid m'.toWatch := by
  rw [update_eq, Act.ends_bind]
  refine ((ends_beforeTick reads.alone.accounts ticks.forward .reliable []).and
    (ends_beforeTick_quiet quiet reads.walks ticks.forward)).mono ?_
  rintro _ _ journal ⟨⟨rfl, accounts, _⟩, rfl, _⟩
  simp only [onWatch, Act.ends_bind, Act.ends_on, Watch.poll, Act.ends_get]
  rw [if_pos ⟨ticks.running, ticks.due⟩]
  simp only [Act.ends_bind, Act.ends_modify, Act.ends_get]
  have home : ∀ e ∈ m.polled, e.1 = eid := fun e mem => (reads.home mem).1
  have asks := Watch.asks_pollSensors (m.tickBegun now) accounts home now journal
  refine asks.mono ?_
  rintro _ w _ ⟨rfl, asks⟩
  exact ⟨rfl, asks⟩

variable [UpdateManager μ]

/-- Answers leave over all requests but their own. -/
theorem answers (reads : m.Reads eid sensors) (iids : List InstanceId) :
    let m' := Turn.run (iids.map (Turn.answer eid)) m
    m'.Reads eid sensors ∧ m'.clock = m.clock ∧ m.poller.Eased m'.poller ∧
      ∀ {key p}, m'.pending.get? key = some p → key.iid ∉ iids ∧ m.pending.get? key = some p := by
  induction iids generalizing m with
  | nil => exact ⟨reads, rfl, .refl _, fun found => ⟨List.not_mem_nil, found⟩⟩
  | cons iid rest ih =>
    obtain ⟨_, walks, roll, clock, eased, fewer⟩ :=
      Act.ends_iff.mp (reads.ends_answer iid .reliable [])
    have own : ∀ t ∈ [(Turn.answer eid iid : Turn μ)], t.operation.IsOwn :=
      List.forall_mem_singleton.mpr trivial
    have next : ((Turn.answer eid iid).after m).Reads eid sensors := {
      alone := reads.alone.run own
      walks := walks ▸ reads.walks
      roll := roll.trans reads.roll
      requests := fun found => reads.requests (fewer found).2 }
    obtain ⟨reads', clock', eased', fewer'⟩ := ih next
    refine ⟨reads', clock'.trans clock, eased.trans eased', ?_⟩
    intro key p found
    obtain ⟨later, found⟩ := fewer' found
    obtain ⟨ne, before⟩ := fewer found
    refine ⟨?_, before⟩
    intro mem
    rcases List.mem_cons.mp mem with same | mem
    · obtain ⟨here, _⟩ := reads.requests before
      subst here same
      exact ne rfl
    · exact later mem

/-- The tick of an update asks for readings, and the next one is due an interval later. -/
theorem updated {now : Nat} (reads : m.Reads eid sensors) (quiet : m.pending.isEmpty = true)
    (ticks : m.TicksAt now) :
    let m' := Turn.after { operation := .update now } m
    m'.Reads eid sensors ∧ m'.clock = now ∧ m'.poller.running = true ∧
      m'.poller.interval = m.poller.interval ∧
      m'.poller.nextTick = timeAfter now m.poller.interval := by
  intro m'
  have ends : Act.Ends (Operation.act (.update now)) m Link.reliable [] fun _ m' _ =>
      m'.walks = m.walks ∧ (m.tickBegun now).Asks eid m'.toWatch := by
    simp only [Operation.act, Act.ends_discard]
    exact reads.ends_update quiet ticks
  obtain ⟨walks, asks⟩ := Act.ends_iff.mp ends
  have own : ∀ t ∈ [({ operation := .update now } : Turn μ)], t.operation.IsOwn :=
    List.forall_mem_singleton.mpr trivial
  have termini : m'.termini = m.termini := asks.termini
  have roll : m'.roll = m.roll := by simp only [Watch.roll, Watch.polled, termini]
  refine ⟨?_, asks.clock, asks.running.trans ticks.running, asks.interval, asks.nextTick⟩
  exact {
    alone := reads.alone.run own
    walks := walks ▸ reads.walks
    roll := roll.trans reads.roll
    requests := fun found => (asks.requests found).elim (fun before => reads.requests before) id }

/-- The readings of answers: they ask for none. -/
theorem readings_answers (m : Monitor μ) (iids : List InstanceId) :
    (Turn.trace (iids.map (Turn.answer eid)) m).filterMap (Deed.reading? eid) = [] := by
  induction iids generalizing m with
  | nil => rfl
  | cons iid rest ih =>
    rw [List.map_cons, Turn.trace, List.filterMap_append, ih, List.append_nil]
    simp only [Turn.deeds, Operation.deeds, Turn.answer, Operation.arranged, Operation.ticked,
      List.nil_append, List.append_nil, readings_driven]

/-- Nothing is sent for answers. -/
theorem tries_answers (reads : m.Reads eid sensors) (iids : List InstanceId) :
    (Turn.history (iids.map (Turn.answer eid)) m).tries = [] := by
  induction iids generalizing m with
  | nil => rfl
  | cons iid rest ih =>
    have silent : (Turn.journal (Turn.answer eid iid) m).tries = [] :=
      (Act.ends_iff.mp (reads.ends_answer iid .reliable [])).1
    rw [List.map_cons, Turn.history, Journal.tries_append, silent, List.nil_append]
    exact ih (reads.answers [iid]).1

/-- All that is sent in an update with nothing else to do asks for readings. -/
theorem sensors_update {now : Nat} (reads : m.Reads eid sensors)
    (quiet : m.pending.isEmpty = true) (ticks : m.TicksAt now) :
    Try.sensors eid (Turn.journal { operation := .update now } m).tries =
      (sensors.take poolSize).map fun key => some key.sensor := by
  have all := (Turn.update_tries m now .reliable).1
  rw [wentOn_of_quiet quiet reads.walks ticks.forward] at all
  rw [all]
  refine (Turn.sensors_looks m now eid).trans ?_
  rw [reads.alone.readings_quiet ticks quiet reads.walks reads.always, List.map_take,
    reads.sensorsAt_keys]

section

variable {now : Nat} {iids : List InstanceId}

/-- After a round in which all is answered, all is as before. -/
theorem round (reads : m.Reads eid sensors) (quiet : m.pending.isEmpty = true)
    (ticks : m.TicksAt now) (all : ∀ iid, iid ∈ iids) {m' : Monitor μ}
    (ends : m' = Turn.run (Round.turns ⟨now, iids.map (Turn.answer eid)⟩) m) :
    m'.Reads eid sensors ∧ m'.pending.isEmpty = true ∧ m'.TicksAt (now + m.poller.interval) ∧
      m'.poller.interval = m.poller.interval := by
  obtain ⟨asks, clock, running, interval, nextTick⟩ := reads.updated quiet ticks
  obtain ⟨reads, clock', eased, fewer⟩ := asks.answers iids
  have same : m' = Turn.run (iids.map (Turn.answer eid))
      (Turn.after { operation := .update now } m) := ends
  rw [← same] at reads clock' eased fewer
  refine ⟨reads, ?_, ⟨?_, ?_, ?_⟩, ?_⟩
  · refine Table.isEmpty_of_forall fun key => Option.eq_none_iff_forall_ne_some.mpr ?_
    intro p found
    exact (fewer found).1 (all key.iid)
  · rw [clock', clock]
    exact Nat.le_add_right _ _
  · rw [eased.running, running]
  · rw [eased.nextTick, nextTick]
    exact timeAfter_le ..
  · rw [eased.interval, interval]

/-- Each round asks the same first 32 sensors, and nothing else is sent. -/
theorem readings_rounds (reads : m.Reads eid sensors) (quiet : m.pending.isEmpty = true)
    (ticks : m.TicksAt now) (all : ∀ iid, iid ∈ iids) (count : Nat) :
    let rounds := Round.regular (iids.map (Turn.answer eid)) m.poller.interval now count
    let asked := (List.replicate count (sensors.take poolSize)).flatten
    m.Served rounds ∧
      (Turn.trace (rounds.flatMap Round.turns) m).filterMap (Deed.reading? eid) = asked ∧
      Try.sensors eid (Turn.history (rounds.flatMap Round.turns) m).tries =
        asked.map fun key => some key.sensor := by
  induction count generalizing m now with
  | zero => exact ⟨trivial, rfl, rfl⟩
  | succ count ih =>
    obtain ⟨reads', quiet', ticks', interval⟩ := reads.round quiet ticks all rfl
    obtain ⟨served, later, sent⟩ := ih reads' quiet' ticks'
    rw [interval] at served later sent
    refine ⟨⟨ticks, quiet, served⟩, ?_, ?_⟩
    · have first : Turn.readings { operation := .update now } m eid = sensors.take poolSize := by
        rw [reads.alone.readings_quiet ticks quiet reads.walks reads.always, List.map_take,
          reads.sensorsAt_keys]
      rw [Round.regular, List.flatMap_cons, Round.turns, List.cons_append, Turn.trace,
        Turn.trace_append, List.filterMap_append, List.filterMap_append, readings_answers,
        List.nil_append, List.replicate_succ, List.flatten_cons]
      exact congrArg₂ _ first later
    · rw [Round.regular, List.flatMap_cons, Round.turns, List.cons_append, Turn.history,
        Turn.history_append, Journal.tries_append, Journal.tries_append,
        tries_answers (reads.updated quiet ticks).1, List.nil_append, Try.sensors_append,
        reads.sensors_update quiet ticks, List.replicate_succ, List.flatten_cons, List.map_append]
      exact congrArg _ sent

end

end Reads

end Monitor

end TerminusMonitor
