import TerminusMonitor.Proofs.Deadlines
import TerminusMonitor.Proofs.Waiting
import TerminusMonitor.Simulation.Scripted

/-!
A monitor has nothing to do before the time that its update returns.

* `Watch.ends_poll_bides`, `Monitor.ends_askNext_bides`: asking for readings and records frees
  no instance ID and makes no walk wait;
* `Monitor.ends_advance_stalled`: so walks that were asked to go on and still wait find no free ID;
* `Monitor.ends_update_bound`: and the delay that is returned tells of all that is left;
* `Monitor.Rests.ends_update`: an update before that only sets the clock.
-/

namespace TerminusMonitor

variable {μ κ : Type} {link : Link} {journal : Journal}

/-- What came between two journals was only logged. -/
def Journal.Notes (journal journal' : Journal) : Prop :=
  ∃ notices : List Notice, journal' = journal ++ notices.map .logged

/-! ### Requests -/

/-- Whether all instance IDs of an endpoint are in use. -/
def Pools.Exhausted (p : Pools) (eid : Eid) : Prop := (p.mask eid).lowestFree? = none

theorem Pools.exhausted_iff {p : Pools} {eid : Eid} :
    p.Exhausted eid ↔ ∀ iid, p.holds eid iid = true := IdMask.lowestFree?_eq_none_iff

namespace Correlator

variable {c c' c'' : Correlator κ}

/-- No time has passed between two correlators, and where no ID was free none has become free. -/
structure Bides (c c' : Correlator κ) : Prop where
  clock : c'.clock = c.clock
  exhausted : ∀ {eid}, c.ids.Exhausted eid → c'.ids.Exhausted eid

theorem Bides.refl (c : Correlator κ) : c.Bides c := ⟨rfl, id⟩

theorem Bides.trans (first : c.Bides c') (later : c'.Bides c'') : c.Bides c'' where
  clock := later.clock.trans first.clock
  exhausted exhausted := later.exhausted (first.exhausted exhausted)

/-- An ID that was taken and freed again was free before. -/
theorem Bides.refused {eid : Eid} {iid : InstanceId}
    (free : (c.ids.mask eid).lowestFree? = some iid) : c.Bides (c.refused eid iid) where
  clock := rfl
  exhausted {eid'} exhausted := by
    have other : eid' ≠ eid := by
      rintro rfl
      cases free.symm.trans exhausted
    rw [Pools.exhausted_iff] at exhausted ⊢
    intro iid'
    have held := @Pools.holds_taken c.ids ⟨eid, iid⟩ ⟨eid', iid'⟩
    have kept := @Pools.holds_released (c.ids.taken eid iid) ⟨eid, iid⟩ ⟨eid', iid'⟩
    simp only [RequestKey.mk.injEq, other, false_and, decide_false, Bool.not_false,
      Bool.true_and, Bool.false_or] at held kept
    exact kept.trans (held.trans (exhausted iid'))

theorem Registration.bides {eid : Eid} {request : Request} {cookie : κ}
    {result : Except Fault InstanceId}
    (registration : Registration c eid request cookie result c') : c.Bides c' := by
  cases registration with
  | @sent iid =>
    refine ⟨rfl, fun {eid'} exhausted => ?_⟩
    rw [Pools.exhausted_iff] at exhausted ⊢
    intro iid'
    refine (@Pools.holds_taken c.ids ⟨eid, iid⟩ ⟨eid', iid'⟩).trans ?_
    rw [exhausted, Bool.or_true]
  | exhausted => exact .refl c
  | duplicate free => exact .refused free
  | unwritten free => exact .refused free
  | unsent free => exact .refused free

theorem Sheds.clock {completions : List (Completion κ)} (sheds : Sheds c completions c') :
    c'.clock = c.clock := by
  induction sheds with
  | done => rfl
  | renewed _ ih => exact ih
  | closed _ _ _ ih => exact ih

/-- The delay until the next deadline is that until the deadline of no later request. -/
theorem nextDelay_le {key : RequestKey} {p : Pending κ} (pending : c.pending.get? key = some p) :
    c.nextDelay ≤ delayUntil p.deadline c.clock := by
  let delays := c.pending.values.map fun p => delayUntil p.deadline c.clock
  have mem : delayUntil p.deadline c.clock ∈ forever :: delays :=
    List.mem_cons_of_mem _ (List.mem_map_of_mem (Table.mem_values_iff.mpr ⟨key, pending⟩))
  exact (List.min?_eq_some_iff.mp rfl).2 _ mem

/-- Time may pass until a deadline. -/
theorem ends_update_early {now : Nat} (forward : c.clock ≤ now)
    (early : ∀ {key p}, c.pending.get? key = some p → now < p.deadline)
    {post : Except Fault (List (Completion κ)) → Correlator κ → Journal → Prop} :
    Act.Ends (update now) c link journal post ↔ post (.ok []) { c with clock := now } journal := by
  have none : overdue { c with clock := now } = [] := by
    rw [List.eq_nil_iff_forall_not_mem]
    intro key mem
    obtain ⟨p, pending, late⟩ := mem_overdue.mp mem
    exact absurd late (Nat.not_le.mpr (early pending))
  simp only [update, Act.ends_bind, Act.ends_get, Nat.not_lt.mpr forward, if_false,
    Act.ends_modify, Act.ends_ofTask, none, expireAll, Task.ends_pure]

end Correlator

/-! ### Readings -/

namespace Watch

variable {w w' w'' : Watch κ} {cookie : SensorKey → κ} {now : Nat}

/-- Nor has a terminus moved, come or gone. -/
structure Bides (w w' : Watch κ) : Prop
    extends requests : Correlator.Bides w.toCorrelator w'.toCorrelator where
  home : ∀ tid, (w'.termini.get? tid).map (·.eid) = (w.termini.get? tid).map (·.eid)

theorem Bides.refl (w : Watch κ) : w.Bides w := ⟨.refl _, fun _ => rfl⟩

theorem Bides.trans (first : w.Bides w') (later : w'.Bides w'') : w.Bides w'' where
  requests := first.requests.trans later.requests
  home tid := (later.home tid).trans (first.home tid)

theorem bides_setSensor {key : SensorKey} {s : NumericSensor} : w.Bides (w.setSensor key s) where
  requests := .refl _
  home tid := by
    simp only [setSensor, Table.get?_modify]
    split
    next same =>
      subst same
      cases w.termini.get? key.tid <;> rfl
    next => rfl

/-- Bidden by a tick or not, a sensor asks for no more than an ID. -/
theorem bides_pollSensor {eid : Eid} {s : NumericSensor} :
    (pollSensor cookie now eid s).Keeps w.Bides fun _ => True := by
  have poller {w' : Watch κ} {poller : Poller} (bides : w.Bides w') :
      w.Bides { w' with poller } := ⟨bides.requests, bides.home⟩
  unfold pollSensor
  refine .bind Act.keeps_get fun _ => ?_
  split
  next =>
    cases ReadSensor.request s.key.sensor false with
    | error fault => exact .bind (Act.keeps_lift _) fun _ => Act.keeps_lift _
    | ok request =>
      have registers : (onRequests (Correlator.register eid request (cookie s.key))).Keeps w.Bides
          fun _ => True := by
        intro w' link journal bides
        rw [onRequests, Act.ends_on]
        refine Correlator.ends_register.mono ?_
        intro result c _ registration
        exact ⟨⟨bides.requests.trans registration.bides, bides.home⟩, fun _ _ => trivial⟩
      refine .outcome_bind registers (fun _ => ?_) fun fault _ => ?_
      · exact Act.keeps_modify fun _ => poller
      · cases fault with
        | state => exact Act.keeps_throw trivial
        | transport =>
          refine .bind (Act.keeps_lift _) fun _ => .bind ?_ fun _ => Act.keeps_lift _
          exact Act.keeps_modify fun _ bides => bides.trans bides_setSensor
        | _ => exact Act.keeps_lift _
  next => exact Act.keeps_pure _

theorem bides_pollSensors {sensors : List (Eid × NumericSensor)} :
    (pollSensors cookie now sensors).Keeps w.Bides fun _ => True := by
  induction sensors with
  | nil => exact Act.keeps_pure _
  | cons e rest ih => exact .bind bides_pollSensor fun _ => ih

/-- The delay that a tick returns is that until the next one. -/
theorem ends_poll_bides :
    Act.Ends (poll cookie now) w link journal fun result w' _ =>
      w.Bides w' ∧ ∀ delay, result = .ok delay → delay = w'.poller.nextDelay now := by
  simp only [poll, Act.ends_bind, Act.ends_get]
  split
  next =>
    simp only [Act.ends_bind, Act.ends_modify, Act.ends_get]
    have ticked {poller : Poller} : w.Bides { w with poller } := ⟨.refl _, fun _ => rfl⟩
    refine (bides_pollSensors _ link journal ticked).mono ?_
    rintro result w' _ ⟨bides, _⟩
    cases result with
    | ok => exact ⟨bides, fun _ eq => (Except.ok.inj eq).symm⟩
    | error => exact ⟨bides, by simp⟩
  next => exact ⟨.refl w, fun _ eq => (Except.ok.inj eq).symm⟩

/-- Before a tick is due polling does nothing. -/
theorem ends_poll_early (early : 0 < w.poller.nextDelay now)
    {post : Except Fault Nat → Watch κ → Journal → Prop} :
    Act.Ends (poll cookie now) w link journal post ↔
      post (.ok (w.poller.nextDelay now)) w journal := by
  have notDue : ¬ (w.poller.running = true ∧ w.poller.nextTick ≤ now) := by
    rintro ⟨running, due⟩
    simp [Poller.nextDelay, running, delayUntil, Nat.sub_eq_zero_of_le due] at early
  simp only [poll, Act.ends_bind, Act.ends_get, notDue, if_false, Act.ends_pure]

end Watch

/-! ### Walks -/

namespace Monitor

variable {m m' m'' : Monitor μ} {tid : Tid} {now : Nat}

/-- Nor has a walk begun to wait. -/
structure Bides (m m' : Monitor μ) : Prop
    extends watch : Watch.Bides m.toWatch m'.toWatch where
  waits : ∀ {tid}, m'.Waits tid → m.Waits tid

theorem Bides.refl (m : Monitor μ) : m.Bides m := ⟨.refl _, id⟩

theorem Bides.trans (first : m.Bides m') (later : m'.Bides m'') : m.Bides m'' where
  watch := first.watch.trans later.watch
  waits waits := first.waits (later.waits waits)

/-- Whether the walk of a terminus, if it waits, finds no free instance ID. -/
def Stalled (m : Monitor μ) (tid : Tid) : Prop :=
  m.Waits tid → ∃ eid, m.home tid = some eid ∧ m.ids.Exhausted eid

theorem Stalled.mono (stalled : m.Stalled tid) (bides : m.Bides m') : m'.Stalled tid := by
  intro waits
  obtain ⟨eid, known, exhausted⟩ := stalled (bides.waits waits)
  exact ⟨eid, (bides.home tid).trans known, bides.exhausted exhausted⟩

/-- The walk of a terminus is over, if there was one. -/
theorem Bides.ended (bides : m.toWatch.Bides m'.toWatch)
    (walks : ∀ tid', m'.walks.get? tid' = if tid' = tid then none else m.walks.get? tid') :
    m.Bides m' ∧ m'.Stalled tid := by
  refine ⟨⟨bides, ?_⟩, ?_⟩
  · rintro tid' ⟨walk, found, waiting⟩
    rw [walks] at found
    split at found
    next => cases found
    next => exact ⟨walk, found, waiting⟩
  · rintro ⟨walk, found, _⟩
    rw [walks, if_pos rfl] at found
    cases found

/-- The record of a walk was asked for. -/
theorem Bides.asked (bides : m.Bides m') :
    let asked : Monitor μ :=
      { m' with walks := m'.walks.modify tid fun w => { w with inFlight := true } }
    m.Bides asked ∧ asked.Stalled tid := by
  refine ⟨⟨bides.watch, ?_⟩, ?_⟩
  · rintro tid' ⟨walk, found, waiting⟩
    rw [Table.get?_modify] at found
    split at found
    next =>
      obtain ⟨_, _, rfl⟩ := Option.map_eq_some_iff.mp found
      cases waiting
    next => exact bides.waits ⟨walk, found, waiting⟩
  · rintro ⟨walk, found, waiting⟩
    rw [Table.get?_modify, if_pos rfl] at found
    obtain ⟨_, _, rfl⟩ := Option.map_eq_some_iff.mp found
    cases waiting

/-- A walk whose record cannot be asked for ends. -/
private theorem Bides.finishWalk (bides : m.Bides m') :
    Task.Ends (finishWalk tid) m' link journal fun _ m'' _ =>
      m.Bides m'' ∧ (True → m''.Stalled tid) := by
  refine ends_finishWalk.mono ?_
  rintro _ _ _ rfl
  have requests := (finished_frame m' tid).1
  have watch : m'.toWatch.Bides (m'.finished tid).toWatch :=
    ⟨requests ▸ .refl _, fun _ => home_finished⟩
  obtain ⟨ends, stalled⟩ := Bides.ended watch fun _ => walks_finished
  exact ⟨bides.trans ends, fun _ => stalled⟩

theorem ends_askNext_bides :
    Act.Ends (askNext tid) m link journal fun result m' _ =>
      m.Bides m' ∧ (result = .ok () → m'.Stalled tid) := by
  simp only [askNext, Act.ends_bind, Act.ends_get]
  cases known : m.termini.get? tid with
  | none =>
    obtain ⟨bides, stalled⟩ := @Bides.ended μ m { m with walks := m.walks.erase tid } tid
      (.refl _) fun _ => Table.get?_erase
    exact ⟨bides, fun _ => stalled⟩
  | some terminus =>
    simp only [Act.ends_bind, Act.ends_get]
    cases found : m.walks.get? tid with
    | none =>
      refine ⟨.refl m, ?_⟩
      rintro _ ⟨walk, found', _⟩
      cases found.symm.trans found'
    | some walk =>
      obtain ⟨payload, written⟩ := FetchRecord.request_eq walk.next
      simp only [written, Act.ends_bind, Act.ofMessage, Act.ends_pure, Act.ends_outcome,
        ends_onRequests]
      refine Correlator.ends_register.mono ?_
      intro result c journal₁ registration
      have bides : m.Bides (m.withRequests c) := ⟨⟨registration.bides, fun _ => rfl⟩, id⟩
      -- A walk whose record is not asked for ends, unless there is no free ID.
      cases registration with
      | sent =>
        simp only [Act.ends_modify]
        obtain ⟨asks, stalled⟩ := @Bides.asked μ m (m.withRequests _) tid bides
        exact ⟨asks, fun _ => stalled⟩
      | exhausted none =>
        refine ⟨bides, fun _ _ => ⟨terminus.eid, ?_, none⟩⟩
        exact congrArg (Option.map Terminus.eid) known
      | duplicate =>
        simp only [Act.ends_throw]
        exact ⟨bides, by simp⟩
      | unwritten =>
        simp only [Act.ends_bind, Act.ends_lift, Effect.ends_log, Act.ends_ofTask]
        exact bides.finishWalk
      | unsent =>
        simp only [Act.ends_bind, Act.ends_lift, Effect.ends_log, Act.ends_ofTask]
        exact bides.finishWalk

theorem ends_askEach_stalled {tids : List Tid} :
    Act.Ends (askEach tids) m link journal fun result m' _ =>
      m.Bides m' ∧ (result = .ok () → ∀ tid ∈ tids, m'.Stalled tid) := by
  induction tids generalizing m journal with
  | nil => exact ⟨.refl m, fun _ => List.forall_mem_nil _⟩
  | cons tid rest ih =>
    rw [askEach, Act.ends_bind]
    refine ends_askNext_bides.mono ?_
    rintro result m₁ journal₁ ⟨first, stalledFirst⟩
    cases result with
    | error => exact ⟨first, by simp⟩
    | ok =>
      refine ih.mono ?_
      rintro result m₂ _ ⟨later, stalled⟩
      refine ⟨first.trans later, fun fine => List.forall_mem_cons.mpr ⟨?_, stalled fine⟩⟩
      exact (stalledFirst rfl).mono later

/-- When all walks have gone on, those that still wait find no free ID. -/
theorem ends_advance_stalled :
    Act.Ends advance m link journal fun result m' _ =>
      m.Bides m' ∧ (result = .ok () → ∀ tid, m'.Stalled tid) := by
  simp only [advance, Act.ends_bind, Act.ends_get]
  refine ends_askEach_stalled.mono ?_
  rintro result m' _ ⟨bides, stalled⟩
  refine ⟨bides, fun fine tid waits => ?_⟩
  exact stalled fine tid (mem_waitingWalks.mpr (bides.waits waits)) waits

/-- A walk that finds no free ID stays as it is. -/
theorem ends_askNext_early (waits : m.Waits tid) (stalled : m.Stalled tid) :
    Act.Ends (askNext tid) m link journal fun result m' journal' =>
      result = .ok () ∧ m' = m ∧ journal.Notes journal' := by
  obtain ⟨eid, home, exhausted⟩ := stalled waits
  obtain ⟨terminus, known, rfl⟩ := Option.map_eq_some_iff.mp home
  obtain ⟨walk, found, _⟩ := waits
  obtain ⟨payload, written⟩ := FetchRecord.request_eq walk.next
  have full : (m.ids.mask terminus.eid).lowestFree? = none := exhausted
  simp only [askNext, Act.ends_bind, Act.ends_get, known, found, written, Act.ofMessage,
    Act.ends_pure, Act.ends_outcome, ends_onRequests, Correlator.register, Correlator.onIds,
    Act.ends_on, Pools.ends_take, full, Act.ends_lift, Effect.ends_log]
  exact ⟨trivial, rfl, [.noFreeId terminus.eid, .discoveryDeferred tid], by simp⟩

theorem ends_askEach_early {tids : List Tid} (waits : ∀ tid ∈ tids, m.Waits tid)
    (stalled : ∀ tid, m.Stalled tid) :
    Act.Ends (askEach tids) m link journal fun result m' journal' =>
      result = .ok () ∧ m' = m ∧ journal.Notes journal' := by
  induction tids generalizing journal with
  | nil => exact ⟨rfl, rfl, [], (List.append_nil journal).symm⟩
  | cons tid rest ih =>
    obtain ⟨waitsFirst, waitsRest⟩ := List.forall_mem_cons.mp waits
    rw [askEach, Act.ends_bind]
    refine (ends_askNext_early waitsFirst (stalled tid)).mono ?_
    rintro _ _ _ ⟨rfl, rfl, first, rfl⟩
    refine (ih waitsRest).mono ?_
    rintro _ _ _ ⟨rfl, rfl, later, rfl⟩
    exact ⟨rfl, rfl, first ++ later, by rw [List.map_append, List.append_assoc]⟩

/-! ### Updates -/

/-- The delay that an update returns is that until the next deadline or tick, and all walks that
wait then find no free ID. -/
theorem ends_update_bound :
    Act.Ends (update now) m link journal fun result m' _ => ∀ delay, result = .ok delay →
      m'.clock = now ∧ delay = min (m'.poller.nextDelay now) m'.nextDelay ∧
        ∀ tid, m'.Stalled tid := by
  simp only [update, Act.ends_bind, ends_onRequests, Act.ends_ofTask]
  refine Correlator.ends_update.mono ?_
  intro result c _ lapse
  cases lapse with
  | reversed => simp
  | expired _ sheds =>
    have clock : (m.withRequests c).clock = now := sheds.clock
    refine (@keeps_completeAll μ (·.clock = now) _ _ link _ clock).mono ?_
    intro _ m₁ _ clock
    refine ends_advance_stalled.mono ?_
    rintro result m₂ _ ⟨bides, stalled⟩
    cases result with
    | error => simp
    | ok =>
      simp only [onWatch, Act.ends_on]
      refine Watch.ends_poll_bides.mono ?_
      rintro result w _ ⟨later, returned⟩
      cases result with
      | error => simp
      | ok poll =>
        simp only [Act.ends_get, Act.ends_pure]
        rintro delay eq
        cases eq
        have bidesLater : m₂.Bides { m₂ with toWatch := w } := ⟨later, id⟩
        have same := (bides.trans bidesLater).clock
        exact ⟨same.trans clock, by rw [returned poll rfl],
          fun tid => (stalled rfl tid).mono bidesLater⟩

/-- Whether at a time no request is overdue, no tick is due, and no walk can go on. -/
structure Rests (m : Monitor μ) (now : Nat) : Prop where
  forward : m.clock ≤ now
  requests : ∀ {key p}, m.pending.get? key = some p → now < p.deadline
  poller : 0 < m.poller.nextDelay now
  walks : ∀ tid, m.Stalled tid

/-- An update then sets the clock, and notes which walks wait. -/
theorem Rests.ends_update (rests : m.Rests now) :
    Act.Ends (update now) m link journal fun result m' journal' =>
      (∃ delay, result = .ok delay) ∧ m' = { m with clock := now } ∧
        journal.Notes journal' := by
  have walks : ∀ tid, Stalled (m.withRequests { m.toCorrelator with clock := now }) tid :=
    rests.walks
  simp only [update, Act.ends_bind, ends_onRequests,
    Correlator.ends_update_early rests.forward rests.requests, Act.ends_ofTask, completeAll,
    Task.ends_pure, advance, Act.ends_get]
  refine (ends_askEach_early (fun _ => mem_waitingWalks.mp) walks).mono ?_
  rintro _ _ journal₁ ⟨rfl, rfl, notices⟩
  have early : 0 < (m.withRequests { m.toCorrelator with clock := now }).poller.nextDelay now :=
    rests.poller
  simp only [onWatch, Act.ends_on, Watch.ends_poll_early early, Act.ends_pure]
  exact ⟨⟨_, rfl⟩, rfl, notices⟩

/-- So a monitor rests until the delay is over. -/
theorem rests_until {delay d : Nat} (returned : (update now).result m link journal = .ok delay)
    (early : d < delay) : Rests ((update now).state m link journal) (now + d) := by
  obtain ⟨clock, bound, stalled⟩ := Act.ends_iff.mp ends_update_bound delay returned
  have within : d < min _ _ := bound ▸ early
  obtain ⟨tick, deadlines⟩ := Nat.lt_min.mp within
  constructor
  case forward => exact Nat.le_trans (Nat.le_of_eq clock) (Nat.le_add_right now d)
  case walks => exact stalled
  case requests =>
    intro key p pending
    have next := Nat.lt_of_lt_of_le deadlines (Correlator.nextDelay_le pending)
    rw [clock, delayUntil] at next
    omega
  case poller =>
    unfold Poller.nextDelay delayUntil at tick ⊢
    split
    next running =>
      rw [if_pos running] at tick
      simp only [forever] at tick ⊢
      omega
    next => simp [forever]

/-- Whatever the state of a monitor, an update before the delay is over that the last one
returned sends and publishes nothing, ends no request, and changes nothing but the clock. -/
theorem nothing_due_within_delay {delay d : Nat} (m : Monitor μ) (link link' : Link)
    (journal journal' : Journal) (returned : (update now).result m link journal = .ok delay)
    (early : d < delay) :
    let m' := (update now).state m link journal
    (∃ delay', (update (now + d)).result m' link' journal' = .ok delay') ∧
      (update (now + d)).state m' link' journal' = { m' with clock := now + d } ∧
      journal'.Notes ((update (now + d)).journal m' link' journal') ∧
      (Correlator.update (now + d)).result m'.toCorrelator link' journal' = .ok [] := by
  intro m'
  have rests : m'.Rests (now + d) := rests_until returned early
  have nothing : Act.Ends (Correlator.update (now + d)) m'.toCorrelator link' journal'
      fun result _ _ => result = .ok [] :=
    (Correlator.ends_update_early rests.forward rests.requests).mpr rfl
  have ends : Act.Ends (update (now + d)) m' link' journal' _ := rests.ends_update
  obtain ⟨fine, state, notes⟩ := Act.ends_iff.mp ends
  exact ⟨fine, state, notes, Act.ends_iff.mp nothing⟩

/-- A terminus is asked for its first record, and polling runs. -/
def awaiting : List (Turn Scripted) :=
  [{ operation := .add 1 8 "Rack" }, { operation := .discover 1 }, { operation := .startPolling },
    { operation := .update 0 }]

/-- The next tick is due at 250. -/
theorem nothing_due_within_delay_awaiting :
    let m := Turn.run awaiting (Monitor.start {} 250 0)
    (update 100).result m .reliable [] = .ok 150 ∧
      (update 249).state ((update 100).state m .reliable []) .reliable [] =
        { (update 100).state m .reliable [] with clock := 249 } := by
  intro m
  have delay : ((update 100).result m .reliable []).toOption = some 150 := by decide +kernel
  have returned : (update 100).result m .reliable [] = .ok 150 := by
    cases result : (update 100).result m .reliable [] with
    | ok => rw [result] at delay; cases delay; rfl
    | error => rw [result] at delay; cases delay
  have law := nothing_due_within_delay (d := 149) m .reliable .reliable [] [] returned (by decide)
  exact ⟨returned, law.2.1⟩

end Monitor

end TerminusMonitor
