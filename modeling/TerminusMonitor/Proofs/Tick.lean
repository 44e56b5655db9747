import TerminusMonitor.Proofs.Outstanding
import TerminusMonitor.Proofs.Requests
import TerminusMonitor.Proofs.Safety

/-!
Which sensors a tick asks for readings.

A tick looks at the sensors of all reachable termini in the order of their keys. Over a
link that sends every message, a look asks a sensor that is due if its endpoint has a
free instance ID (`Watch.Look`), and takes the lowest one. So of the sensors of an
endpoint that are due a tick asks the first, as many as there are free IDs.

* `Watch.readings_polls`: the sensors that looks in turn ask;
* `Turn.sensors_looks`: the messages of a tick ask for these sensors;
* `Monitor.ends_beforeTick`: up to its tick an update keeps the account of the instance
  IDs and the course of polling, and does not fail;
* `Monitor.Alone.readings_due`: the sensors that an update of a monitor asks that alone
  uses its pools;
* `Monitor.Alone.dueAt_eq`, `Monitor.Alone.readings_quiet`: which are due if all answers
  have come, and which are asked if nothing else goes on.
-/

namespace TerminusMonitor

variable {μ : Type} {link : Link} {journal : Journal} {others : RequestKey → Prop}

/-! ### One look -/

/-- Over a link that sends every message, a platform request is sent if there is a free
instance ID. -/
theorem Correlator.ends_register_reliable {κ : Type} {c : Correlator κ}
    (accounts : c.Accounts others) (journal : Journal) (eid : Eid) (command : UInt8)
    (payload : List UInt8) (cookie : κ) :
    Act.Ends (register eid (.ofPayload platformType command payload) cookie) c Link.reliable journal
      fun result c' _ =>
        match (c.ids.mask eid).lowestFree? with
        | none => result = .error .exhausted ∧ c' = c
        | some iid => result = .ok iid ∧ ∃ message, c' =
            c.opened ⟨eid, iid⟩ (.ofPayload platformType command payload) message cookie := by
  simp only [register, onIds, Act.ends_bind, Act.ends_on, Pools.ends_take]
  cases free : (c.ids.mask eid).lowestFree? with
  | none => exact ⟨trivial, trivial⟩
  | some iid =>
    obtain ⟨message, written⟩ := Request.written_ofPayload command payload iid
    have fresh := (Pools.Split.of_free accounts free).1
    simp only [Act.ends_get, fresh, Bool.false_eq_true, if_false, Act.ends_bind, Act.ends_lift,
      ends_transmit, written, Link.reliable]
    exact ⟨rfl, message, rfl⟩

/-- A sensor is due as before when another one was asked. -/
theorem Poller.isDue_asked {p : Poller} {s : NumericSensor} {key : SensorKey} {now time : Nat}
    (ne : s.key ≠ key) : (p.asked key now).isDue s time = p.isDue s time := by
  have unmarked : (p.outstanding.insert key ()).contains s.key = p.outstanding.contains s.key := by
    rw [Table.contains, Table.get?_insert_of_ne ne, Table.contains]
  simp only [isDue, asked, unmarked, Table.get?_insert_of_ne ne]

/-- A sensor that is to be polled in each tick is due unless its reading is outstanding. -/
theorem Poller.isDue_of_unmarked {p : Poller} {s : NumericSensor} {now : Nat}
    (always : s.updateInterval = 0) (unmarked : p.outstanding.contains s.key = false) :
    p.isDue s now = true := by
  rw [isDue, unmarked]
  cases p.lastPoll.get? s.key <;> simp [always]

namespace Watch

variable {w w' : Watch Purpose} {now : Nat} {eid : Eid} {s : NumericSensor}

/-- How a look at a sensor ends over a link that sends every message. -/
inductive Look (w : Watch Purpose) (now : Nat) (eid : Eid) (s : NumericSensor) :
    List Deed → Watch Purpose → Prop where
  | idle (due : w.poller.isDue s now = false) : Look w now eid s [] w
  | full (due : w.poller.isDue s now = true) (full : (w.ids.mask eid).lowestFree? = none) :
      Look w now eid s [] w
  | asked {iid : InstanceId} {payload message : List UInt8}
      (due : w.poller.isDue s now = true) (free : (w.ids.mask eid).lowestFree? = some iid) :
      Look w now eid s [.polled ⟨eid, iid⟩ s.key]
        { w with
          toCorrelator := w.opened ⟨eid, iid⟩
            (.ofPayload platformType (Coded.code Command.getSensorReading) payload) message
            (.reading s.key)
          poller := w.poller.asked s.key now }

theorem ends_look (accounts : w.Accounts others) (journal : Journal) (now : Nat) (eid : Eid)
    (s : NumericSensor) :
    Act.Ends (pollSensor .reading now eid s) w Link.reliable journal fun result w' _ =>
      result = .ok () ∧ Look w now eid s (w.polling Link.reliable journal now eid s) w' := by
  obtain ⟨payload, asks⟩ := ReadSensor.request_eq s.key.sensor false
  simp only [pollSensor, Act.ends_bind, Act.ends_get, polling]
  split
  next due =>
    simp only [asks, Act.ends_bind, Act.ends_outcome, onRequests, Act.ends_on]
    have registers := Act.ends_iff.mp (Correlator.ends_register_reliable accounts journal eid
      (Coded.code Command.getSensorReading) payload (.reading s.key))
    rw [Act.ends_iff]
    generalize Act.result _ w.toCorrelator _ journal = result,
      Act.state _ w.toCorrelator _ journal = c at registers ⊢
    cases free : (w.ids.mask eid).lowestFree? with
    | none =>
      rw [free] at registers
      obtain ⟨rfl, rfl⟩ := registers
      exact ⟨rfl, .full due free⟩
    | some iid =>
      rw [free] at registers
      obtain ⟨rfl, message, rfl⟩ := registers
      exact ⟨rfl, .asked due free⟩
  next undue => exact ⟨rfl, .idle (Bool.eq_false_iff.mpr undue)⟩

end Watch

/-! ### A tick -/

/-- The sensor that a deed asks for a reading, if it sends the request to an endpoint. -/
def Deed.reading? (eid : Eid) : Deed → Option SensorKey
  | polled key sensor => if key.eid = eid then some sensor else none
  | _ => none

/-- The sensors of an endpoint in a list. -/
def NumericSensor.homedAt (eid : Eid) (sensors : List (Eid × NumericSensor)) : List NumericSensor :=
  sensors.filterMap fun e => if e.1 = eid then some e.2 else none

theorem NumericSensor.mem_homedAt {eid : Eid} {sensors : List (Eid × NumericSensor)}
    {s : NumericSensor} : s ∈ homedAt eid sensors ↔ (eid, s) ∈ sensors := by
  constructor
  · intro mem
    obtain ⟨⟨eid', s'⟩, listed, found⟩ := List.mem_filterMap.mp mem
    split at found
    next home => cases home; cases found; exact listed
    next => cases found
  · intro listed
    exact List.mem_filterMap.mpr ⟨(eid, s), listed, if_pos rfl⟩

/-- The sensors of an endpoint in a list that are due. -/
def Poller.due (p : Poller) (now : Nat) (eid : Eid) (sensors : List (Eid × NumericSensor)) :
    List NumericSensor :=
  (NumericSensor.homedAt eid sensors).filter (p.isDue · now)

namespace Poller

variable {p : Poller} {now : Nat} {eid eid' : Eid} {s : NumericSensor}
  {rest : List (Eid × NumericSensor)}

theorem due_cons_of_ne (ne : eid' ≠ eid) :
    p.due now eid ((eid', s) :: rest) = p.due now eid rest := by
  simp [due, NumericSensor.homedAt, ne]

theorem due_cons_self : p.due now eid ((eid, s) :: rest) =
    if p.isDue s now then s :: p.due now eid rest else p.due now eid rest := by
  simp [due, NumericSensor.homedAt, List.filter_cons]

theorem due_cons_of_idle (idle : p.isDue s now = false) :
    p.due now eid ((eid', s) :: rest) = p.due now eid rest := by
  by_cases same : eid' = eid
  · rw [same, due_cons_self, idle, if_neg Bool.false_ne_true]
  · exact due_cons_of_ne same

theorem due_asked {key : SensorKey} (others : ∀ e ∈ rest, e.2.key ≠ key) :
    (p.asked key now).due now eid rest = p.due now eid rest := by
  refine List.filter_congr ?_
  intro s mem
  exact isDue_asked (others (eid, s) (NumericSensor.mem_homedAt.mp mem))

end Poller

namespace Watch

variable {w w' : Watch Purpose} {now : Nat} {eid : Eid}

namespace Look

variable {eid' : Eid} {s : NumericSensor} {deeds : List Deed} {rest : List (Eid × NumericSensor)}

theorem accounts (accounts : w.Accounts others) (look : Look w now eid s deeds w') :
    w'.Accounts others := by
  cases look with
  | idle => exact accounts
  | full => exact accounts
  | @asked iid _ _ _ free =>
    have free : (w.ids.mask (RequestKey.mk eid iid).eid).lowestFree? = some iid := free
    exact accounts.opened free

/-- A sensor that is due is asked in front of those behind it, if there is a free ID. -/
theorem readings (look : Look w now eid' s deeds w') (apart : ∀ e ∈ rest, e.2.key ≠ s.key) :
    deeds.filterMap (Deed.reading? eid) ++
        ((w'.poller.due now eid rest).take (poolSize - w'.ids.inUse eid)).map (·.key) =
      ((w.poller.due now eid ((eid', s) :: rest)).take (poolSize - w.ids.inUse eid)).map
        (·.key) := by
  cases look with
  | idle idle => rw [Poller.due_cons_of_idle idle]; rfl
  | full due full =>
    by_cases same : eid' = eid
    · subst same
      have none : poolSize - w.ids.inUse eid' = 0 := by
        rw [Pools.inUse, IdMask.lowestFree?_eq_none_iff_count.mp full, Nat.sub_self]
      rw [none, List.take_zero, List.take_zero]
      rfl
    · rw [Poller.due_cons_of_ne same]
      rfl
  | @asked iid payload message due free =>
    have used : (w.opened ⟨eid', iid⟩ (.ofPayload platformType (Coded.code Command.getSensorReading)
          payload) message (.reading s.key)).ids.inUse eid =
        if eid = eid' then w.ids.inUse eid' + 1 else w.ids.inUse eid := Pools.inUse_taken free
    dsimp only
    rw [Poller.due_asked apart, used]
    by_cases same : eid' = eid
    · subst same
      have room : poolSize - w.ids.inUse eid' = poolSize - (w.ids.inUse eid' + 1) + 1 := by
        have left : w.ids.inUse eid' ≠ poolSize := fun full => by
          cases free.symm.trans (IdMask.lowestFree?_eq_none_iff_count.mpr full)
        have bound : w.ids.inUse eid' ≤ poolSize := IdMask.count_le
        omega
      rw [if_pos rfl, room, Poller.due_cons_self, if_pos due, List.take_succ_cons]
      simp [Deed.reading?]
    · rw [if_neg (Ne.symm same), Poller.due_cons_of_ne same]
      simp [Deed.reading?, same]

end Look

/-- Of the sensors of an endpoint that are due, the first ones are asked, as many as
there are free instance IDs. -/
theorem readings_polls {sensors : List (Eid × NumericSensor)} (accounts : w.Accounts others)
    (once : sensors.Pairwise fun e e' => e'.2.key ≠ e.2.key) :
    (w.polls Link.reliable journal now sensors).filterMap (Deed.reading? eid) =
      ((w.poller.due now eid sensors).take (poolSize - w.ids.inUse eid)).map (·.key) := by
  induction sensors generalizing w journal with
  | nil => simp [polls, Poller.due, NumericSensor.homedAt]
  | cons e rest ih =>
    obtain ⟨apart, onceLater⟩ := List.pairwise_cons.mp once
    have look := Act.ends_iff.mp (ends_look accounts journal now e.1 e.2)
    rw [polls, List.filterMap_append]
    generalize polling w _ _ _ _ _ = deeds, Act.result _ w _ journal = result,
      Act.state _ w _ journal = w₁, Act.journal _ w _ journal = journal₁ at look ⊢
    obtain ⟨rfl, look⟩ := look
    exact (congrArg _ (ih (look.accounts accounts) onceLater)).trans (look.readings apart)

end Watch

/-! ### Up to the tick -/

/-- Two courses of polling that differ in marks at most, which the second has no more of. -/
structure Poller.Eased (p p' : Poller) : Prop where
  interval : p'.interval = p.interval
  running : p'.running = p.running
  nextTick : p'.nextTick = p.nextTick
  fewer : ∀ {key}, p'.outstanding.contains key = true → p.outstanding.contains key = true

theorem Poller.Eased.refl (p : Poller) : p.Eased p := ⟨rfl, rfl, rfl, id⟩

theorem Poller.Eased.trans {p p' p'' : Poller} (first : p.Eased p') (second : p'.Eased p'') :
    p.Eased p'' :=
  ⟨second.interval.trans first.interval, second.running.trans first.running,
    second.nextTick.trans first.nextTick, fun marked => first.fewer (second.fewer marked)⟩

namespace Monitor

variable {m : Monitor μ} {now : Nat} {eid : Eid}

theorem eased_settled {completion : Completion Purpose} :
    m.poller.Eased (m.settled completion).poller := by
  rw [settled_poller]
  cases completion.cookie with
  | reading key => exact ⟨rfl, rfl, rfl, fun marked => (Table.contains_erase.mp marked).2⟩
  | _ => exact .refl _

theorem eased_settle {completions : List (Completion Purpose)} :
    m.poller.Eased (completions.foldl settled m).poller := by
  induction completions generalizing m with
  | nil => exact .refl _
  | cons completion rest ih => exact eased_settled.trans ih

/-- No walk goes on if none is under way. -/
theorem ends_advance_idle (idle : m.walks.isEmpty = true) :
    Act.Ends advance m link journal fun _ m' journal' => m' = m ∧ journal' = journal := by
  have waiting : m.waitingWalks = [] := by
    simp [waitingWalks, Table.filter, Table.keys, List.isEmpty_iff.mp idle]
  simp only [advance, Act.ends_bind, Act.ends_get, waiting, askEach, Act.ends_pure, and_self]

/-- When time goes on, outcomes are taken in and walks go on, and nothing fails. -/
theorem ends_beforeTick (accounts : m.Accounts others) (forward : m.clock ≤ now) (link : Link)
    (journal : Journal) :
    Act.Ends (goOn (Operation.opening (.update now))) m link journal fun result m' _ =>
      result = .ok () ∧ m'.Accounts others ∧ m.poller.Eased m'.poller := by
  simp only [goOn, Operation.opening, Act.ends_bind, ends_onRequests]
  refine Correlator.ends_update.mono ?_
  intro result c journal lapse
  obtain ⟨accounts, late⟩ := accounts.lapse lapse
  cases result with
  | error fault => exact absurd (late fault rfl).2 (Nat.not_lt.mpr forward)
  | ok completions =>
    simp only [Act.ends_ofTask, Act.ends_pure]
    have kept := @keeps_completeAll μ (·.Accounts others) completions (m.withRequests c) link
      journal accounts
    refine (kept.and ends_completeAll).mono ?_
    rintro _ m₁ journal₁ ⟨accounts, taken⟩
    have eased : m.poller.Eased m₁.poller := taken ▸ eased_settle (m := m.withRequests c)
    have kept := keeps_advance (@Correlator.Accounts.sound Purpose others).admits m₁ link
      journal₁ accounts
    refine (kept.and frame_advance).mono ?_
    rintro result m₂ _ ⟨⟨accounts, fine⟩, _, same, _⟩
    refine ⟨?_, accounts, same ▸ eased⟩
    cases result with
    | ok => rfl
    | error fault => exact (fine fault rfl).elim

/-- With no request outstanding and no walk under way, nothing but time goes on. -/
theorem ends_beforeTick_quiet (pending : m.pending.isEmpty = true) (walks : m.walks.isEmpty = true)
    (forward : m.clock ≤ now) :
    Act.Ends (goOn (Operation.opening (.update now))) m link journal fun _ m' journal' =>
      m' = m.withRequests { m.toCorrelator with clock := now } ∧ journal' = journal := by
  have overdue : Correlator.overdue { m.toCorrelator with clock := now } = [] := by
    simp [Correlator.overdue, Table.filter, Table.keys, List.isEmpty_iff.mp pending]
  simp only [goOn, Operation.opening, Act.ends_bind, ends_onRequests, Correlator.update,
    Act.ends_get, Nat.not_lt.mpr forward, if_false, Act.ends_modify, Act.ends_ofTask, overdue,
    Correlator.expireAll, Task.ends_pure, completeAll, Act.ends_pure]
  exact ends_advance_idle walks

/-- The monitor when the tick of an update comes. -/
def atTick (m : Monitor μ) (link : Link) (now : Nat) : Monitor μ :=
  (goOn (Operation.opening (.update now))).state m link []

/-- Whether an update at a time has a tick. -/
structure TicksAt (m : Monitor μ) (now : Nat) : Prop where
  forward : m.clock ≤ now
  running : m.poller.running = true
  due : m.poller.nextTick ≤ now

theorem Keyed.atTick (keyed : m.Keyed) : (m.atTick link now).Keyed :=
  Moves.preserves (Act.ends_iff.mp (ends_goOn (ends_opening_update m link [] now)))
    (·.monitor.Keyed) Keyed.move keyed

end Monitor

/-! ### Ticks of a run -/

/-- The sensors of the reachable termini at an endpoint, in the order of their keys. -/
def Watch.sensorsAt {κ : Type} (w : Watch κ) (eid : Eid) : List NumericSensor :=
  NumericSensor.homedAt eid w.polled

/-- The sensors at an endpoint that are due. -/
def Watch.dueAt {κ : Type} (w : Watch κ) (now : Nat) (eid : Eid) : List NumericSensor :=
  w.poller.due now eid w.polled

/-- The sensors that a turn asks for readings with requests to an endpoint, in the order
of the requests. -/
def Turn.readings (t : Turn μ) (m : Monitor μ) (eid : Eid) : List SensorKey :=
  (t.deeds m).filterMap (Deed.reading? eid)

namespace Monitor

variable {m : Monitor μ} {now : Nat} {eid : Eid}

theorem Keyed.sensorsAt_sorted (keyed : m.Keyed) :
    (m.sensorsAt eid).Pairwise fun s s' => rank s.key < rank s'.key := by
  refine List.pairwise_filterMap.mpr (keyed.polled_sorted.imp ?_)
  intro e e' lt s home s' home'
  split at home
  next =>
    split at home'
    next => cases home; cases home'; exact lt
    next => cases home'
  next => cases home

theorem readings_driven {opening : Act (Monitor μ) (Option (List (Completion Purpose)))} :
    (m.driven link journal opening).filterMap (Deed.reading? eid) = [] := by
  refine List.filterMap_eq_nil_iff.mpr ?_
  intro deed mem
  cases deed with
  | polled key sensor => exact (polled_notMem_driven mem).elim
  | _ => rfl

theorem Keyed.readings_update (keyed : m.Keyed) (accounts : m.Accounts others)
    (ticks : m.TicksAt now) :
    Turn.readings { operation := .update now } m eid =
      (((m.atTick .reliable now).dueAt now eid).take
        (poolSize - (m.atTick .reliable now).ids.inUse eid)).map (·.key) := by
  have keyed : (m.atTick .reliable now).Keyed := keyed.atTick
  obtain ⟨fine, accounts, eased⟩ :=
    Act.ends_iff.mp (ends_beforeTick accounts ticks.forward .reliable [])
  have tick : (m.atTick .reliable now).poller.running = true ∧
      (m.atTick .reliable now).poller.nextTick ≤ now :=
    ⟨eased.running.trans ticks.running, eased.nextTick ▸ ticks.due⟩
  simp only [Turn.readings, Turn.deeds, Operation.deeds, Operation.arranged, List.nil_append,
    List.filterMap_append, readings_driven, Operation.ticked, fine, Watch.ticking]
  refine (congrArg _ (if_pos tick)).trans ?_
  exact @Watch.readings_polls _ others { (m.atTick .reliable now).toWatch with poller := _ } _ _ _
    accounts keyed.polled_once

end Monitor

/-- The requests for readings that a tick makes at an endpoint ask for the sensors that the
deeds tell of. -/
theorem Deed.sensors_of_polledBy {deeds : List Deed} {tries : List Try} (eid : Eid)
    (polled : List.Forall₂ PolledBy (deeds.filter polls) tries) :
    Try.sensors eid tries = (deeds.filterMap (reading? eid)).map fun key => some key.sensor := by
  have same : (deeds.filter polls).filterMap (reading? eid) = deeds.filterMap (reading? eid) := by
    rw [List.filterMap_filter]
    refine List.filterMap_congr ?_
    intro deed _
    cases deed <;> rfl
  rw [← same]
  generalize deeds.filter polls = deeds at polled
  induction polled with
  | nil => rfl
  | @cons deed attempt rest later first _ ih =>
    cases first with
    | @polled key sensor message numbered asks =>
      by_cases here : key.eid = eid
      · have told : (Deed.polled key sensor).reading? eid = some sensor := if_pos here
        rw [List.filterMap_cons_some told, List.map_cons, ← ih, Try.sensors_cons, if_pos here, asks]
      · have told : (Deed.polled key sensor).reading? eid = none := if_neg here
        rw [List.filterMap_cons_none told, ← ih, Try.sensors_cons, if_neg here]

/-- Over a link that sends every message, a tick asks for its readings with the messages that
it sends. -/
theorem Turn.sensors_looks [UpdateManager μ] (m : Monitor μ) (now : Nat) (eid : Eid) :
    let update : Turn μ := { operation := .update now }
    Try.sensors eid (update.looks m) =
      (update.readings m eid).map fun key => some key.sensor := by
  intro update
  have all : Try.sent (update.looks m) = update.looks m := by
    refine List.filter_eq_self.mpr ?_
    intro attempt mem
    exact decide_eq_true ((update_tries m now .reliable).2.1 rfl attempt mem)
  have polled := update.looks_match m
  rw [all] at polled
  exact Deed.sensors_of_polledBy eid polled

/-! ### The law of a tick -/

namespace Monitor

variable {m : Monitor μ} {now : Nat} {eid : Eid}

/-- A monitor that alone uses its pools: the instance IDs in use are those of its pending
requests, sensors are filed under their keys, and marks stand for pending requests. -/
structure Alone (m : Monitor μ) : Prop where
  accounts : m.Accounts fun _ => False
  keyed : m.Keyed
  marked : Scene.Marked ⟨m, []⟩

theorem Alone.startWith (policy : RetryPolicy) (interval start : Nat) :
    (Monitor.startWith {} policy interval start : Monitor μ).Alone where
  accounts := .fresh rfl rfl fun _ => id
  keyed := keyed_startWith ..
  marked := .startWith ..

theorem Alone.run [UpdateManager μ] {turns : List (Turn μ)} (alone : m.Alone)
    (own : ∀ t ∈ turns, t.operation.IsOwn) : (Turn.run turns m).Alone where
  accounts := Turn.accounts_run (fun t mem => (own t mem).unshared) alone.accounts
  keyed := Turn.keyed_run alone.keyed turns
  marked := Turn.run_preserves alone.keyed turns _ Scene.Marked.move alone.marked

namespace Alone

/-- As many of the sensors that are due are asked as there are IDs that no request is
waiting with, -/
theorem readings_due (alone : m.Alone) (ticks : m.TicksAt now) :
    let here := m.atTick .reliable now
    Turn.readings { operation := .update now } m eid =
      ((here.dueAt now eid).take (poolSize - here.pendingFor eid)).map (·.key) := by
  intro here
  obtain ⟨_, accounts, _⟩ :=
    Act.ends_iff.mp (ends_beforeTick alone.accounts ticks.forward .reliable [])
  have used : here.ids.inUse eid = here.pendingFor eid := accounts.inUse_eq fun _ => id
  rw [alone.keyed.readings_update alone.accounts ticks, used]

/-- and those without an update interval are due unless their reading is outstanding. -/
theorem dueAt_eq (alone : m.Alone) (ticks : m.TicksAt now) (link : Link)
    (ready : ∀ s ∈ (m.atTick link now).sensorsAt eid,
      s.updateInterval = 0 ∧ ¬ ∃ key, m.IsPending key (.reading s.key)) :
    (m.atTick link now).dueAt now eid = (m.atTick link now).sensorsAt eid := by
  obtain ⟨_, _, eased⟩ :=
    Act.ends_iff.mp (ends_beforeTick alone.accounts ticks.forward link [])
  refine List.filter_eq_self.mpr ?_
  intro s mem
  obtain ⟨always, unasked⟩ := ready s mem
  apply Poller.isDue_of_unmarked always
  rw [Bool.eq_false_iff]
  intro marks
  exact unasked (alone.marked.iff_pending.mp (eased.fewer marks))

end Alone

/-- A monitor with nothing to do but polling is the same when its tick comes. -/
theorem atTick_of_quiet (pending : m.pending.isEmpty = true) (walks : m.walks.isEmpty = true)
    (forward : m.clock ≤ now) (link : Link) :
    m.atTick link now = m.withRequests { m.toCorrelator with clock := now } :=
  (Act.ends_iff.mp (ends_beforeTick_quiet pending walks forward)).1

/-- Nor has it sent anything by then. -/
theorem wentOn_of_quiet (pending : m.pending.isEmpty = true) (walks : m.walks.isEmpty = true)
    (forward : m.clock ≤ now) (link : Link) :
    Turn.wentOn { operation := .update now, link } m = [] :=
  (Act.ends_iff.mp (ends_beforeTick_quiet pending walks forward)).2

/-- With nothing else to do, it asks the first 32 sensors. -/
theorem Alone.readings_quiet (alone : m.Alone) (ticks : m.TicksAt now)
    (pending : m.pending.isEmpty = true) (walks : m.walks.isEmpty = true)
    (always : ∀ s ∈ m.sensorsAt eid, s.updateInterval = 0) :
    Turn.readings { operation := .update now } m eid =
      ((m.sensorsAt eid).take poolSize).map (·.key) := by
  have same := atTick_of_quiet pending walks ticks.forward .reliable
  have none : (m.withRequests { m.toCorrelator with clock := now }).pendingFor eid = 0 :=
    pendingFor_of_isEmpty pending
  have ready : ∀ s ∈ (m.atTick .reliable now).sensorsAt eid,
      s.updateInterval = 0 ∧ ¬ ∃ key, m.IsPending key (.reading s.key) := by
    rw [same]
    intro s mem
    exact ⟨always s mem, fun ⟨_, asked⟩ => not_isPending_of_isEmpty pending asked⟩
  rw [alone.readings_due ticks, alone.dueAt_eq ticks .reliable ready, same, none, Nat.sub_zero]
  rfl

end Monitor

end TerminusMonitor
