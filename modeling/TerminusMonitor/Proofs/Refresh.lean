import TerminusMonitor.Proofs.Redraw

/-!
Runs redraw the sensors step by step.

An operation is a plan of steps, and each of them redraws what it changes, given that the sensors
are filed well before it; this it keeps up.

* `Monitor.goes_advancePlan`, `Monitor.goes_responsePlan`, `Monitor.goes_tickPlan`,
  `Monitor.goes_updatePlan`: what is done sensor by sensor or outcome by outcome;
* `Operation.goes_plan`: every operation;
* `Turn.refreshes_moments`: every run.
-/

namespace TerminusMonitor

variable {μ : Type} {link : Link} {m : Monitor μ} {x : Moment (Monitor μ)} {eid : Eid}
  {bytes : List UInt8} {now : Nat}

namespace Monitor

/-! ### Responses -/

theorem goes_advancePlan (filed : x.state.Filed) :
    advancePlan.Goes Refreshes link x fun _ y => y.state.Filed := by
  refine .bind (.one ⟨IsQuiet.refreshes ⟨fun _ => rfl, rfl⟩ filed, fun m _ => ?_⟩)
  refine .each (fun _ (m : Monitor μ) => m.Filed) (fun tid _ y filed => ?_) filed
  exact (refreshes_askNext filed).mono fun _ _ _ refreshes => ⟨refreshes, refreshes.1⟩

theorem goes_responsePlan (filed : x.state.Filed) :
    (responsePlan eid bytes).Goes Refreshes link x fun _ y => y.state.Filed := by
  have adds : (Correlator.receive eid bytes : Task (Correlator Purpose) _).Adds
      fun event => event.draws = false :=
    Correlator.adds_receive (fun _ => rfl) (fun _ => rfl) eid bytes
  refine .bind (.one ?_)
  simp only [onRequests, onWatch, Watch.onRequests, Act.ends_on, Act.ends_ofTask]
  refine (adds _ link _).mono ?_
  intro completion? c journal grows
  have filed₁ : (x.state.withRequests c).Filed := filed.congr rfl rfl
  refine ⟨IsQuiet.refreshes ⟨fun _ => rfl, grows.calls⟩ filed₁, ?_⟩
  intro _ result
  cases result
  cases completion? with
  | none => exact filed₁
  | some completion =>
    refine .bind (.one ?_)
    simp only [Act.ends_ofTask]
    refine (refreshes_complete filed₁).mono fun _ _ _ refreshes => ⟨refreshes, fun _ _ => ?_⟩
    exact goes_advancePlan refreshes.1

/-! ### Ticks -/

/-- Each sensor that is left to look at is listed, and once. -/
structure Awaiting (m : Monitor μ) (sensors : List (Eid × NumericSensor)) : Prop where
  filed : m.Filed
  once : sensors.Pairwise fun e e' => e'.2.key ≠ e.2.key
  lists : ∀ e ∈ sensors, m.toWatch.Lists e

/-- All that a tick begins with is listed. -/
theorem refreshes_beginTick (filed : x.state.Filed) :
    Act.Ends (beginTick now) x.state link x.journal fun result m journal =>
      Refreshes x ⟨m, journal⟩ ∧ ∀ sensors, result = .ok sensors → m.Awaiting sensors := by
  simp only [beginTick, Act.ends_bind, Act.ends_get]
  split
  next =>
    simp only [Act.ends_bind, Act.ends_modify, Act.ends_get, Act.ends_pure]
    have filed₁ (poller : Poller) : ({ x.state with poller } : Monitor μ).Filed :=
      filed.congr rfl rfl
    refine ⟨IsQuiet.refreshes ⟨fun _ => rfl, rfl⟩ (filed₁ _), ?_⟩
    intro sensors result
    cases result
    exact ⟨filed₁ _, (filed₁ _).keyed.polled_once, fun _ => (filed₁ _).keyed.lists⟩
  next =>
    refine ⟨IsQuiet.refreshes ⟨fun _ => rfl, rfl⟩ filed, ?_⟩
    intro sensors result
    cases result
    exact ⟨filed, .nil, List.forall_mem_nil _⟩

/-- To look at one sensor leaves the others listed. -/
theorem Awaiting.look {e : Eid × NumericSensor} {rest : List (Eid × NumericSensor)}
    (awaiting : x.state.Awaiting (e :: rest)) :
    Act.Ends (onWatch (Watch.pollSensor .reading now e.1 e.2)) x.state link x.journal
      fun _ m journal => Refreshes x ⟨m, journal⟩ ∧ m.Awaiting rest := by
  obtain ⟨others, once⟩ := List.pairwise_cons.mp awaiting.once
  have lists := awaiting.lists e List.mem_cons_self
  rw [ends_onWatch]
  refine ((refreshes_pollSensor awaiting.filed lists).and
    (ends_pollSensor link x.journal now lists)).mono ?_
  rintro _ w journal ⟨refreshes, _, kept⟩
  refine ⟨refreshes, refreshes.1, once, fun e' mem => ?_⟩
  exact kept (others e' mem) (awaiting.lists e' (List.mem_cons_of_mem _ mem))

theorem goes_tickPlan (filed : x.state.Filed) :
    (tickPlan now).Goes Refreshes link x fun _ y => y.state.Filed := by
  refine .bind (.one ((refreshes_beginTick filed).mono ?_))
  rintro _ m journal ⟨refreshes, awaits⟩
  refine ⟨refreshes, fun sensors result => ?_⟩
  -- Each sensor that is looked at leaves the rest awaiting.
  refine (Plan.Goes.each (fun left m => m.Awaiting left) ?_ (awaits sensors result)).mono
    fun _ _ awaiting => awaiting.filed
  intro e rest y awaiting
  exact awaiting.look

/-! ### Updates and walks that begin -/

theorem goes_updatePlan [UpdateManager μ] (filed : x.state.Filed) :
    (Operation.update now : Operation μ).plan.Goes Refreshes link x fun _ y => y.state.Filed := by
  have adds : (Correlator.update now : Act (Correlator Purpose) _).Adds
      fun event => event.draws = false :=
    Correlator.adds_update (fun _ => rfl) (fun _ => rfl) (fun _ _ _ => rfl) now
  refine .bind (.one ?_)
  simp only [onRequests, onWatch, Watch.onRequests, Act.ends_on]
  refine (adds _ link _).mono ?_
  intro result c journal grows
  have filed₁ : (x.state.withRequests c).Filed := filed.congr rfl rfl
  refine ⟨IsQuiet.refreshes ⟨fun _ => rfl, grows.calls⟩ filed₁, fun completions _ => ?_⟩
  refine .bind ((Plan.Goes.each (fun _ (m : Monitor μ) => m.Filed) ?_ filed₁).mono ?_)
  · intro completion rest y filed
    rw [Act.ends_ofTask]
    exact (refreshes_complete filed).mono fun _ _ _ refreshes => ⟨refreshes, refreshes.1⟩
  · intro _ y filed
    exact .bind ((goes_advancePlan filed).mono fun _ _ filed => goes_tickPlan filed)

theorem refreshes_beginWalk {tid : Tid} (filed : x.state.Filed) :
    Act.Ends (beginWalk tid) x.state link x.journal fun _ m journal =>
      Refreshes x ⟨m, journal⟩ := by
  simp only [beginWalk, Act.ends_bind, Act.ends_get]
  cases x.state.termini.contains tid with
  | false => exact IsQuiet.refreshes ⟨fun _ => rfl, rfl⟩ filed
  | true =>
    cases running : x.state.isDiscovering tid with
    | true =>
      simp only [Bool.not_true, Bool.false_eq_true, if_false, Act.ends_bind, Act.ends_get,
        running, if_true]
      exact IsQuiet.refreshes ⟨fun _ => rfl, Journal.calls_logged ..⟩ filed
    | false =>
      simp only [Bool.not_true, Bool.false_eq_true, if_false, Act.ends_bind, Act.ends_get,
        running]
      exact IsQuiet.refreshes ⟨fun _ => rfl, Journal.calls_logged ..⟩ filed.insertWalk

end Monitor

open Monitor

namespace Operation

/-! ### Operations -/

variable {act : Act (Monitor μ) Unit}

/-- An operation that is a single step. -/
private theorem goes_one
    (step : act.Ends x.state link x.journal fun _ m journal => Refreshes x ⟨m, journal⟩) :
    (Plan.one act).Goes Refreshes link x fun _ _ => True :=
  .one (step.mono fun _ _ _ refreshes => ⟨refreshes, fun _ _ => trivial⟩)

/-- An operation that concerns neither the registry nor the display. -/
private theorem goes_unseen (filed : x.state.Filed)
    (step : act.Ends x.state link x.journal fun _ m journal =>
      m.termini = x.state.termini ∧ m.walks = x.state.walks ∧
        Journal.calls journal = x.journal.calls) :
    (Plan.one act).Goes Refreshes link x fun _ _ => True := by
  refine goes_one (step.mono ?_)
  rintro _ m journal ⟨termini, walks, calls⟩
  have sensors (key : SensorKey) : m.sensor? key = x.state.sensor? key := by
    rw [Watch.sensor?, termini]
    rfl
  exact IsQuiet.refreshes ⟨sensors, calls⟩ (filed.congr termini walks)

variable [UpdateManager μ]

theorem goes_discover {tid : Tid} (filed : x.state.Filed) :
    (discover tid : Operation μ).plan.Goes Refreshes link x fun _ _ => True := by
  refine .bind (.one ((refreshes_beginWalk filed).mono ?_))
  refine fun _ _ _ refreshes => ⟨refreshes, fun started _ => ?_⟩
  cases started with
  | true => exact (goes_advancePlan refreshes.1).mono fun _ _ _ => trivial
  | false => trivial

theorem goes_message (filed : x.state.Filed) :
    (message eid bytes : Operation μ).plan.Goes Refreshes link x fun _ _ => True := by
  have responds (y : Moment (Monitor μ)) (filed : y.state.Filed) :
      (responsePlan eid bytes).Goes Refreshes link y fun _ _ => True :=
    (goes_responsePlan filed).mono fun _ _ _ => trivial
  simp only [plan]
  cases Header.ofBytes bytes with
  | error fault =>
    refine .bind (.one ?_)
    rw [Act.ends_lift]
    refine (ends_quiet (Effect.adds_remark (fun _ => rfl) fault)).mono fun _ _ calls => ?_
    exact ⟨IsQuiet.refreshes ⟨fun _ => rfl, calls⟩ filed, fun _ _ => responds _ filed⟩
  | ok header =>
    dsimp only
    split
    next => exact goes_one (refreshes_onRequest filed)
    next => exact responds x filed

/-- Each step of an operation refreshes the display. -/
theorem goes_plan (operation : Operation μ) (filed : x.state.Filed) :
    operation.plan.Goes Refreshes link x fun _ _ => True := by
  cases operation with
  | add => exact goes_one (refreshes_add filed)
  | remove => exact goes_one (refreshes_remove filed)
  | markUnreachable => exact goes_one (refreshes_markUnreachable filed)
  | discover => exact goes_discover filed
  | startPolling =>
    refine goes_unseen filed ?_
    simp only [Operation.act, Monitor.startPolling, Act.ends_bind, Act.ends_get, onWatch,
      Act.ends_on, Act.ends_ofTask, Watch.onPoller, Task.ends_on, Poller.start, Task.ends_bind,
      Task.ends_get]
    split
    next => exact ⟨trivial, trivial, rfl⟩
    next => exact ⟨trivial, trivial, Journal.calls_logged ..⟩
  | stopPolling =>
    refine goes_unseen filed ?_
    simp only [Operation.act, Monitor.stopPolling, onWatch, Act.ends_on,
      Act.ends_ofTask, Watch.onPoller, Task.ends_on, Poller.stop, Task.ends_bind, Task.ends_get]
    split
    next => exact ⟨trivial, trivial, Journal.calls_logged ..⟩
    next => exact ⟨trivial, trivial, rfl⟩
  | setProperty => exact goes_one (refreshes_setProperty filed)
  | load mapping =>
    cases mapping with
    | error fault => exact goes_unseen filed ⟨rfl, rfl, rfl⟩
    | ok mapping => exact goes_unseen filed ⟨rfl, rfl, Journal.calls_logged ..⟩
  | update => exact (goes_updatePlan filed).mono fun _ _ _ => trivial
  | message => exact goes_message filed
  | response => exact (goes_responsePlan filed).mono fun _ _ _ => trivial
  | manage => exact goes_unseen filed ⟨rfl, rfl, rfl⟩
  | share => exact goes_unseen filed ⟨rfl, rfl, rfl⟩

end Operation

/-! ### Runs -/

/-- Each step of a run refreshes the display. -/
theorem Turn.refreshes_moments [UpdateManager μ] (turns : List (Turn μ)) (filed : m.Filed) :
    (moments turns m).IsChain Refreshes :=
  isChain_later (·.Filed) turns (fun t _ _ filed => (t.operation.goes_plan filed).isChain)
    (fun refreshes => refreshes.1) (fun x _ _ refreshes => refreshes.since x) ⟨m, []⟩ filed

end TerminusMonitor
