import TerminusMonitor.Proofs.Persistence

/-!
What polling goes by.

The clock and the course of polling, but for its marks, are the `Pace` of a monitor. Only time,
starts and stops change it, and the times of the last polls follow from the deeds
(`Pace.noting`).

* `Watch.pace_poll`: what a tick does to the pace;
* `Turn.pace_after`: what a turn does to it, step by step of a run (`Pace.Step`);
* `Turn.lastPoll_after`: a turn notes its time for the sensors that it asks, and for no others.
-/

namespace TerminusMonitor

variable {μ κ : Type} {link : Link} {journal : Journal}

/-- What polling goes by. -/
structure Pace where
  clock : Nat
  interval : Nat
  running : Bool
  nextTick : Nat
  lastPoll : Table SensorKey Nat

/-- What a watch goes by. -/
def Watch.pace (w : Watch κ) : Pace where
  clock := w.clock
  interval := w.poller.interval
  running := w.poller.running
  nextTick := w.poller.nextTick
  lastPoll := w.poller.lastPoll

/-- Notes what a deed at a time means for the times of the last polls. -/
def Deed.note (now : Nat) (lastPoll : Table SensorKey Nat) : Deed → Table SensorKey Nat
  | removed tid => lastPoll.filter fun key _ => key.tid != tid
  | polled _ sensor => lastPoll.insert sensor now
  | _ => lastPoll

/-- Whether a deed asks a sensor for a reading. -/
def Deed.asks (sensor : SensorKey) : Deed → Bool
  | polled _ sensor' => sensor = sensor'
  | _ => false

theorem Deed.any_asks {sensor : SensorKey} {deeds : List Deed} :
    deeds.any (·.asks sensor) = true ↔ ∃ key, .polled key sensor ∈ deeds := by
  rw [List.any_eq_true]
  constructor
  · rintro ⟨deed, mem, asks⟩
    cases deed with
    | polled key sensor' =>
      cases of_decide_eq_true asks
      exact ⟨key, mem⟩
    | _ => cases asks
  · rintro ⟨key, mem⟩
    exact ⟨_, mem, decide_eq_true rfl⟩

/-- A deed that does not remove its terminus is noted for the sensor that it asks. -/
theorem Deed.get?_note {now : Nat} {lastPoll : Table SensorKey Nat} {sensor : SensorKey}
    {deed : Deed} (kept : deed ≠ .removed sensor.tid) :
    (deed.note now lastPoll).get? sensor =
      if deed.asks sensor then some now else lastPoll.get? sensor := by
  cases deed with
  | polled key sensor' =>
    simp only [note, asks, Table.get?_insert, decide_eq_true_eq]
  | removed tid =>
    have other : (sensor.tid != tid) = true :=
      bne_iff_ne.mpr fun same => kept (congrArg removed same.symm)
    ext last
    simp [note, asks, Table.get?_filter_eq_some_iff, other]
  | _ => rfl

/-- The pace after deeds at a time. -/
def Pace.noting (p : Pace) (now : Nat) (deeds : List Deed) : Pace :=
  { p with lastPoll := deeds.foldl (Deed.note now) p.lastPoll }

namespace Pace

variable {p : Pace} {now : Nat} {deeds later : List Deed}

theorem noting_append : p.noting now (deeds ++ later) = (p.noting now deeds).noting now later := by
  simp only [noting, List.foldl_append]

/-- Deeds that neither remove a terminus nor ask a sensor are not noted. -/
theorem noting_eq_self (mute : ∀ deed ∈ deeds,
    (∀ tid, deed ≠ .removed tid) ∧ ∀ key sensor, deed ≠ .polled key sensor) :
    p.noting now deeds = p := by
  have same (lastPoll : Table SensorKey Nat) :
      deeds.foldl (Deed.note now) lastPoll = lastPoll := by
    induction deeds with
    | nil => rfl
    | cons deed rest ih =>
      obtain ⟨first, others⟩ := List.forall_mem_cons.mp mute
      have unnoted : deed.note now lastPoll = lastPoll := by
        cases deed with
        | removed tid => exact absurd rfl (first.1 tid)
        | polled key sensor => exact absurd rfl (first.2 key sensor)
        | _ => rfl
      rw [List.foldl_cons, unnoted, ih others]
  simp only [noting, same]

/-- Whoever is asked at a time was last asked then. -/
theorem noting_get? {sensor : SensorKey} (kept : .removed sensor.tid ∉ deeds) :
    (p.noting now deeds).lastPoll.get? sensor =
      if deeds.any (·.asks sensor) then some now else p.lastPoll.get? sensor := by
  simp only [noting]
  generalize p.lastPoll = lastPoll
  induction deeds generalizing lastPoll with
  | nil => rfl
  | cons deed rest ih =>
    obtain ⟨other, kept⟩ := not_or.mp (mt List.mem_cons.mpr kept)
    rw [List.foldl_cons, ih kept, List.any_cons, Deed.get?_note (Ne.symm other)]
    cases deed.asks sensor <;> cases rest.any (·.asks sensor) <;> rfl

end Pace

/-! ### Ticks -/

namespace Watch

variable {w : Watch Purpose} {now : Nat}

theorem pace_pollSensor (w : Watch Purpose) (link : Link) (journal : Journal) (now : Nat)
    (eid : Eid) (s : NumericSensor) :
    Act.Ends (pollSensor .reading now eid s) w link journal fun _ w' _ =>
      w'.pace = w.pace.noting now (w.polling link journal now eid s) := by
  simp only [pollSensor, Act.ends_bind, Act.ends_get, polling]
  split
  next due =>
    cases ReadSensor.request s.key.sensor false with
    | error fault => rfl
    | ok request =>
      simp only [Act.ends_bind, Act.ends_outcome, onRequests, Act.ends_on]
      have registration := Correlator.registration w.toCorrelator link journal eid request
        (.reading s.key)
      rw [Act.ends_iff]
      generalize Act.result _ w.toCorrelator link journal = result,
        Act.state _ w.toCorrelator link journal = c at registration ⊢
      cases registration with
      | sent | exhausted | duplicate | unwritten | unsent => rfl
  next => rfl

theorem pace_pollSensors {sensors : List (Eid × NumericSensor)} :
    Act.Ends (pollSensors .reading now sensors) w link journal fun _ w' _ =>
      w'.pace = w.pace.noting now (w.polls link journal now sensors) := by
  induction sensors generalizing w journal with
  | nil => rfl
  | cons e rest ih =>
    have first := Act.ends_iff.mp (pace_pollSensor w link journal now e.1 e.2)
    simp only [pollSensors, polls, Act.ends_bind]
    rw [Act.ends_iff]
    generalize Act.result _ w link journal = result, Act.state _ w link journal = w₁,
      Act.journal _ w link journal = journal₁ at first ⊢
    rw [Pace.noting_append, ← first]
    cases result with
    | error fault => rfl
    | ok => exact ih

/-- The pace when a tick is over. -/
theorem pace_poll :
    Act.Ends (poll .reading now) w link journal fun _ w' _ =>
      w'.pace = (if w.poller.running ∧ w.poller.nextTick ≤ now then
          { w.pace with nextTick := timeAfter now w.poller.interval }
        else w.pace).noting now (w.ticking link journal now) := by
  simp only [poll, ticking, Act.ends_bind, Act.ends_get]
  split
  next =>
    simp only [Act.ends_bind, Act.ends_modify, Act.ends_get]
    refine pace_pollSensors.mono ?_
    intro result w' _ paced
    cases result with
    | error fault => exact paced
    | ok => exact paced
  next => rfl

end Watch

/-! ### Walks and outcomes -/

namespace Monitor

variable {m : Monitor μ}

/-- Another course of a walk, or other requests, do not matter to the pace. -/
theorem pace_congr {m' : Monitor μ} (clock : m'.clock = m.clock) (poller : m'.poller = m.poller) :
    m'.pace = m.pace := by
  simp only [Watch.pace, clock, poller]

theorem pace_advance : Act.Ends advance m link journal fun _ m' _ => m'.pace = m.pace := by
  refine frame_advance.mono ?_
  rintro _ m' _ ⟨clock, poller, _⟩
  exact pace_congr clock poller

theorem pace_settled {completion : Completion Purpose} : (m.settled completion).pace = m.pace := by
  simp only [Watch.pace, settled_toCorrelator, settled_poller]
  cases completion.cookie <;> rfl

theorem pace_settle {completions : List (Completion Purpose)} :
    (completions.foldl settled m).pace = m.pace := by
  induction completions generalizing m with
  | nil => rfl
  | cons completion rest ih => exact ih.trans pace_settled

theorem pace_onResponse {eid : Eid} {bytes : List UInt8} :
    Act.Ends (onResponse eid bytes) m link journal fun _ m' _ => m'.pace = m.pace := by
  rw [onResponse, Act.ends_bind, ends_onRequests, Act.ends_ofTask]
  refine Correlator.ends_receive.mono ?_
  intro completion? c _ reception
  have kept : (m.withRequests c).pace = m.pace := pace_congr (by cases reception <;> rfl) rfl
  cases completion? with
  | none => exact kept
  | some completion =>
    simp only [Act.ends_bind, Act.ends_ofTask]
    refine ends_complete.mono ?_
    rintro _ _ _ rfl
    refine pace_advance.mono ?_
    intro _ _ _ same
    exact same.trans (pace_settled.trans kept)

/-- Up to its tick an update only sets the clock, -/
theorem pace_beforeTick {now : Nat} (forward : m.clock ≤ now) :
    Act.Ends (goOn (Operation.opening (.update now))) m link journal fun _ m' _ =>
      m'.pace = { m.pace with clock := now } := by
  simp only [goOn, Operation.opening, Act.ends_bind, ends_onRequests]
  refine (Correlator.ends_update.and (Correlator.ends_elapse forward)).mono ?_
  rintro result c _ ⟨lapse, elapsed⟩
  cases lapse with
  | reversed earlier => exact absurd forward (Nat.not_le.mpr earlier)
  | expired =>
    simp only [Act.ends_ofTask, Act.ends_pure]
    refine ends_completeAll.mono ?_
    rintro _ _ _ rfl
    refine pace_advance.mono ?_
    intro _ _ _ same
    refine same.trans (pace_settle.trans ?_)
    simp only [Watch.pace, withRequests, elapsed.clock]

/-- and it does not come to one when time goes back. -/
theorem ends_beforeTick_reversed {now : Nat} (reversed : now < m.clock) :
    Act.Ends (goOn (Operation.opening (.update now))) m link journal fun result _ _ =>
      result = .error (.state .timeReversed) := by
  simp only [goOn, Operation.opening, Act.ends_bind, ends_onRequests]
  refine Correlator.ends_update.mono ?_
  intro result c _ lapse
  cases lapse with
  | reversed => rfl
  | expired forward => exact absurd forward (Nat.not_le.mpr reversed)

/-! ### Operations -/

theorem pace_dropUnused {eid : Eid} {notice : Notice} :
    Act.Ends (do
        if (← get).pendingFor eid = 0 then onIds (.ofTask (Pools.drop eid))
        Effect.log notice) m link journal fun result m' _ =>
      result = .ok () ∧ m'.pace = m.pace := by
  simp only [Act.ends_bind, Act.ends_get, onIds, Correlator.onIds]
  split
  next =>
    simp only [Act.ends_bind, ends_onRequests, Act.ends_on, Act.ends_ofTask, Act.ends_lift,
      Effect.ends_log]
    exact Task.ends_of_forall fun _ _ _ => ⟨trivial, rfl⟩
  next => exact ⟨rfl, rfl⟩

theorem pace_remove {tid : Tid} {terminus : Terminus} (known : m.termini.get? tid = some terminus)
    (now : Nat) :
    Act.Ends (remove tid) m link journal fun result m' _ =>
      result = .ok () ∧ m'.pace = m.pace.noting now [.removed tid] := by
  simp only [remove, Act.ends_bind, Act.ends_get, known, Act.ends_modify, Act.ends_lift,
    Effect.ends_removeAll, onInventory, Act.ends_on, Act.ends_ofTask]
  refine Task.ends_of_forall ?_
  intro erased inventory journal
  split
  next =>
    rw [Act.ends_bind]
    simp only [Act.ends_lift, Effect.ends_log]
    exact pace_dropUnused
  next => exact pace_dropUnused

theorem pace_add {tid : Tid} {eid : Eid} {name : String} (now : Nat) :
    Act.Ends (add tid eid name) m link journal fun _ m' _ =>
      m'.pace = m.pace.noting now (Operation.arranged m (.add tid eid name)) := by
  simp only [add, Act.ends_bind, Act.ends_get, Operation.arranged]
  cases known : m.termini.get? tid with
  | none => rfl
  | some terminus =>
    dsimp only
    split
    next => split <;> rfl
    next =>
      simp only [Act.ends_bind, Act.ends_lift, Effect.ends_log]
      refine (pace_remove known now).mono ?_
      rintro _ _ _ ⟨rfl, removed⟩
      exact removed

theorem pace_markUnreachable {tid : Tid} :
    Act.Ends (markUnreachable tid) m link journal fun _ m' _ => m'.pace = m.pace := by
  simp only [markUnreachable, Act.ends_bind, Act.ends_get]
  cases m.termini.get? tid with
  | none => rfl
  | some terminus => dsimp only; split <;> rfl

theorem pace_discover {tid : Tid} :
    Act.Ends (discover tid) m link journal fun _ m' _ => m'.pace = m.pace := by
  simp only [discover, Act.ends_bind, Act.ends_get]
  split
  next => rfl
  next =>
    simp only [Act.ends_bind, Act.ends_get]
    split
    next => rfl
    next => exact pace_advance

theorem pace_setProperty {path property : String} {value : PropertyValue} :
    Act.Ends (setProperty path property value) m link journal fun _ m' _ => m'.pace = m.pace := by
  simp only [setProperty, Act.ends_bind, Act.ends_get]
  split
  next mapping _ =>
    split
    next => rfl
    next written _ =>
      cases written with
      | error fault => rfl
      | ok request =>
        simp only [Act.ofMessage, Act.ends_bind, Act.ends_pure, Act.ends_discard, ends_onRequests]
        refine Correlator.ends_register.mono ?_
        intro result c _ registration
        exact pace_congr registration.clock rfl
  next => rfl

theorem pace_startPolling :
    Act.Ends startPolling m link journal fun _ m' _ =>
      m'.pace = if m.poller.running then m.pace
        else { m.pace with running := true, nextTick := m.clock } := by
  simp only [startPolling, Act.ends_bind, Act.ends_get, onWatch, Act.ends_on, Act.ends_ofTask,
    Watch.onPoller, Task.ends_on, Poller.start, Task.ends_bind, Task.ends_get]
  split
  next => rfl
  next => rfl

theorem pace_stopPolling :
    Act.Ends stopPolling m link journal fun _ m' _ =>
      m'.pace = { m.pace with running := false } := by
  simp only [stopPolling, onWatch, Act.ends_on, Act.ends_ofTask, Watch.onPoller, Task.ends_on,
    Poller.stop, Task.ends_bind, Task.ends_get]
  split <;> rfl

/-- An update whose tick is due notes the sensors that it asks. -/
theorem pace_update {now : Nat} (forward : m.clock ≤ now) :
    Act.Ends (update now) m link journal fun _ m' _ =>
      Operation.ticked m link journal (.update now) = [] ∧
          m'.pace = { m.pace with clock := now } ∨
        m.poller.running = true ∧ m.poller.nextTick ≤ now ∧
          m'.pace =
            { m.pace with clock := now, nextTick := timeAfter now m.poller.interval }.noting now
              (Operation.ticked m link journal (.update now)) := by
  have before : (Act.state (goOn (Operation.opening (.update now))) m link journal).pace =
      { m.pace with clock := now } := Act.ends_iff.mp (pace_beforeTick forward)
  rw [update_eq, Act.ends_bind, Act.ends_iff]
  simp only [Operation.ticked]
  generalize Act.result _ m link journal = result, Act.state _ m link journal = m₁,
    Act.journal _ m link journal = journal₁ at before ⊢
  cases result with
  | error fault => exact .inl ⟨rfl, before⟩
  | ok =>
    simp only [Act.ends_bind, onWatch, Act.ends_on]
    refine Watch.pace_poll.mono ?_
    intro result w _ paced
    have running : m₁.poller.running = m.poller.running := congrArg Pace.running before
    have nextTick : m₁.poller.nextTick = m.poller.nextTick := congrArg Pace.nextTick before
    have interval : m₁.poller.interval = m.poller.interval := congrArg Pace.interval before
    rw [running, nextTick, interval, before] at paced
    have ended : m₁.toWatch.ticking link journal₁ now = [] ∧ w.pace = { m.pace with clock := now } ∨
        m.poller.running = true ∧ m.poller.nextTick ≤ now ∧
          w.pace =
            { m.pace with clock := now, nextTick := timeAfter now m.poller.interval }.noting now
              (m₁.toWatch.ticking link journal₁ now) := by
      split at paced
      next due => exact .inr ⟨due.1, due.2, paced⟩
      next undue =>
        rw [Watch.ticking, running, nextTick, if_neg undue] at paced ⊢
        exact .inl ⟨rfl, paced⟩
    cases result <;> exact ended

end Monitor

/-! ### Turns -/

/-- How deeds of an operation change the pace. -/
inductive Pace.Step (p : Pace) (deeds : List Deed) : Operation μ → Pace → Prop where
  | still {operation : Operation μ} (quiet : ∀ key sensor, .polled key sensor ∉ deeds) :
      Step p deeds operation (p.noting p.clock deeds)
  | started (idle : p.running = false) (quiet : ∀ key sensor, .polled key sensor ∉ deeds) :
      Step p deeds .startPolling
        ({ p with running := true, nextTick := p.clock }.noting p.clock deeds)
  | stopped (quiet : ∀ key sensor, .polled key sensor ∉ deeds) :
      Step p deeds .stopPolling ({ p with running := false }.noting p.clock deeds)
  /-- An update without a tick. -/
  | passed {now : Nat} (forward : p.clock ≤ now)
      (quiet : ∀ key sensor, .polled key sensor ∉ deeds) :
      Step p deeds (.update now) ({ p with clock := now }.noting now deeds)
  | ticked {now : Nat} (forward : p.clock ≤ now) (running : p.running = true)
      (due : p.nextTick ≤ now) :
      Step p deeds (.update now)
        ({ p with clock := now, nextTick := timeAfter now p.interval }.noting now deeds)

namespace Pace.Step

variable {p q : Pace} {deeds : List Deed} {operation : Operation μ}

theorem interval (step : p.Step deeds operation q) : q.interval = p.interval := by
  cases step <;> rfl

theorem clock_le (step : p.Step deeds operation q) : p.clock ≤ q.clock := by
  cases step with
  | passed forward => exact forward
  | ticked forward => exact forward
  | _ => exact Nat.le_refl _

/-- The sensors that are asked are noted with the time, and no others unless their termini are
removed. -/
theorem lastPoll_get? (step : p.Step deeds operation q) {sensor : SensorKey}
    (kept : .removed sensor.tid ∉ deeds) :
    q.lastPoll.get? sensor =
      if deeds.any (·.asks sensor) then some q.clock else p.lastPoll.get? sensor := by
  cases step <;> exact noting_get? kept

/-- The next tick stays where it is, unless polling is started or one has come. -/
theorem nextTick (step : p.Step deeds operation q) :
    q.nextTick = p.nextTick ∨ (operation = .startPolling ∧ p.running = false) ∨
      p.nextTick ≤ q.clock := by
  cases step with
  | started idle => exact .inr (.inl ⟨rfl, idle⟩)
  | ticked _ _ due => exact .inr (.inr due)
  | _ => exact .inl rfl

/-- An update that asks a sensor ticks. -/
theorem of_polled {now : Nat} {key : RequestKey} {sensor : SensorKey}
    (step : p.Step deeds (.update now : Operation μ) q) (asked : .polled key sensor ∈ deeds) :
    p.clock ≤ now ∧ p.nextTick ≤ now ∧ q.clock = now ∧
      q.nextTick = timeAfter now q.interval := by
  cases step with
  | ticked forward _ due => exact ⟨forward, due, rfl, rfl⟩
  | still quiet => exact absurd asked (quiet key sensor)
  | passed _ quiet => exact absurd asked (quiet key sensor)

end Pace.Step

namespace Turn

variable {m : Monitor μ} {t : Turn μ}

/-- Sensors are asked at a tick. -/
theorem mem_ticked_of_polled {key : RequestKey} {sensor : SensorKey}
    (mem : .polled key sensor ∈ t.deeds m) :
    .polled key sensor ∈ t.operation.ticked m t.link [] := by
  rw [deeds, Operation.deeds, List.mem_append, List.mem_append] at mem
  rcases mem with (arranged | driven) | ticked
  · cases Operation.arranges_of_mem_arranged arranged
  · exact absurd driven Monitor.polled_notMem_driven
  · exact ticked

/-- Outcomes and records that are asked for are not noted. -/
theorem noting_deeds {p : Pace} {now : Nat} :
    p.noting now (t.deeds m) =
      (p.noting now (t.operation.arranged m)).noting now (t.operation.ticked m t.link []) := by
  have mute : ∀ deed ∈ m.driven t.link [] t.operation.opening,
      (∀ tid, deed ≠ .removed tid) ∧ ∀ key sensor, deed ≠ .polled key sensor := by
    intro deed mem
    constructor
    · rintro tid rfl
      cases Monitor.arranges_of_mem_driven mem
    · rintro key sensor rfl
      exact Monitor.polled_notMem_driven mem
  rw [deeds, Operation.deeds, Pace.noting_append, Pace.noting_append, Pace.noting_eq_self mute]

/-- A turn whose operation has no tick asks no sensor. -/
theorem polled_notMem_of_untimed (untimed : t.operation.ticked m t.link [] = [])
    (key : RequestKey) (sensor : SensorKey) : .polled key sensor ∉ t.deeds m := by
  intro mem
  have asked := mem_ticked_of_polled mem
  rw [untimed] at asked
  cases asked

variable [UpdateManager μ]

/-- If it leaves the pace alone, only what it arranges is noted. -/
theorem pace_still (untimed : t.operation.ticked m t.link [] = [])
    (same : (t.after m).pace = m.pace.noting m.clock (t.operation.arranged m)) :
    m.pace.Step (t.deeds m) t.operation (t.after m).pace := by
  have noted : (t.after m).pace = m.pace.noting m.pace.clock (t.deeds m) := by
    rw [noting_deeds, untimed]
    exact same
  rw [noted]
  exact .still (polled_notMem_of_untimed untimed)

/-- An update that time goes on with passes or ticks, -/
theorem pace_forward {now : Nat} (updates : t.operation = .update now) (forward : m.clock ≤ now) :
    m.pace.Step (t.deeds m) t.operation (t.after m).pace := by
  have noted (p : Pace) : p.noting now (t.deeds m) =
      p.noting now (t.operation.ticked m t.link []) := by
    rw [noting_deeds, updates]
    rfl
  have ended : Act.Ends t.operation.act m t.link [] fun _ m' _ =>
      m.pace.Step (t.deeds m) t.operation m'.pace := by
    rw [updates] at noted ⊢
    simp only [Operation.act, Act.ends_discard]
    refine (Monitor.pace_update forward).mono ?_
    rintro _ m' _ (⟨untimed, paced⟩ | ⟨running, due, paced⟩)
    -- It has no tick if one is not due, or if walks could not go on before it.
    · have passed := Pace.Step.passed (μ := μ) (p := m.pace) forward
        (polled_notMem_of_untimed (updates ▸ untimed))
      rw [noted, untimed] at passed
      exact paced ▸ passed
    · rw [paced, ← noted]
      exact .ticked forward running due
  exact Act.ends_iff.mp ended

/-- and one that it would go back with changes nothing. -/
theorem pace_reversed {now : Nat} (updates : t.operation = .update now)
    (reversed : now < m.clock) : m.pace.Step (t.deeds m) t.operation (t.after m).pace := by
  refine pace_still ?_ ?_
  · have fails : Act.result (Monitor.goOn (Operation.opening (.update now))) m t.link [] =
        .error (.state .timeReversed) := Act.ends_iff.mp (Monitor.ends_beforeTick_reversed reversed)
    simp only [updates, Operation.ticked, fails]
  · have ended : Act.Ends t.operation.act m t.link [] fun _ m' _ => m' = m := by
      rw [updates, Operation.act, Act.ends_discard]
      exact Monitor.ends_update_reversed reversed
    rw [updates]
    exact congrArg (fun m' : Monitor μ => m'.pace) (Act.ends_iff.mp ended)

/-- What a turn does to the pace. -/
theorem pace_after (m : Monitor μ) (t : Turn μ) :
    m.pace.Step (t.deeds m) t.operation (t.after m).pace := by
  obtain ⟨operation, link⟩ := t
  cases operation with
  | add tid eid name => exact pace_still rfl (Act.ends_iff.mp (Monitor.pace_add _))
  | remove tid =>
    refine pace_still rfl ?_
    simp only [Operation.arranged]
    cases known : m.termini.get? tid with
    | none =>
      have refused : Act.Ends (Monitor.remove tid) m link [] fun _ m' _ => m'.pace = m.pace := by
        simp only [Monitor.remove, Act.ends_bind, Act.ends_get, known]
        rfl
      rw [Table.contains_eq_false_iff.mpr known]
      exact Act.ends_iff.mp refused
    | some terminus =>
      rw [if_pos (Table.contains_iff.mpr ⟨_, known⟩)]
      exact (Act.ends_iff.mp (Monitor.pace_remove known _)).2
  | markUnreachable tid =>
    refine pace_still rfl ((Act.ends_iff.mp Monitor.pace_markUnreachable).trans ?_)
    simp only [Operation.arranged]
    split <;> rfl
  | discover tid =>
    refine pace_still rfl ((Act.ends_iff.mp Monitor.pace_discover).trans ?_)
    simp only [Operation.arranged]
    split <;> rfl
  | startPolling =>
    have started : (after { operation := .startPolling, link } m).pace =
        if m.poller.running then m.pace
        else { m.pace with running := true, nextTick := m.clock } :=
      Act.ends_iff.mp Monitor.pace_startPolling
    split at started
    next => exact pace_still rfl started
    next idle =>
      rw [started]
      exact .started (Bool.eq_false_iff.mpr idle) (polled_notMem_of_untimed rfl)
  | stopPolling =>
    have stopped : (after { operation := .stopPolling, link } m).pace =
        { m.pace with running := false } := Act.ends_iff.mp Monitor.pace_stopPolling
    rw [stopped]
    exact .stopped (polled_notMem_of_untimed rfl)
  | setProperty path property value =>
    exact pace_still rfl (Act.ends_iff.mp Monitor.pace_setProperty)
  | load mapping =>
    cases mapping with
    | error fault => exact pace_still rfl rfl
    | ok mapping => exact pace_still rfl rfl
  | update now =>
    rcases Nat.lt_or_ge now m.clock with reversed | forward
    · exact pace_reversed rfl reversed
    · exact pace_forward rfl forward
  | message eid bytes =>
    have kept : Act.Ends (Monitor.onMessage eid bytes) m link [] fun _ m' _ =>
        m'.pace = m.pace := by
      refine Monitor.ends_onMessage_of (fun _ => ?_) fun _ => Monitor.pace_onResponse
      refine Monitor.frame_onRequest.mono ?_
      rintro _ _ _ ⟨watch, _⟩
      exact congrArg Watch.pace watch
    exact pace_still rfl (Act.ends_iff.mp kept)
  | response eid bytes => exact pace_still rfl (Act.ends_iff.mp Monitor.pace_onResponse)
  | manage change => exact pace_still rfl rfl
  | share ids => exact pace_still rfl rfl

/-- A turn notes its time for the sensors that it asks, and leaves those of other sensors
alone unless it removes their termini. -/
theorem lastPoll_after {sensor : SensorKey} (kept : .removed sensor.tid ∉ t.deeds m) :
    (t.after m).poller.lastPoll.get? sensor =
      if (t.deeds m).any (·.asks sensor) then some (t.after m).clock
      else m.poller.lastPoll.get? sensor :=
  (pace_after m t).lastPoll_get? kept

end Turn

end TerminusMonitor
