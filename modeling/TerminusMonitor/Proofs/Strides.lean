import TerminusMonitor.Proofs.Deeds
import TerminusMonitor.Proofs.Moments

/-!
What a monitor does between one moment and the next.

Most steps only arrange things or send requests. Those that replace or change the sensors of a
terminus by what came of a request are told apart: an outcome is taken in, or a walk ends
because its request is not sent.

* `Monitor.Stride`: the three kinds of steps;
* `Turn.strides_moments`: each step of a run is one of them;
* `Turn.moments_preserve`: what each move preserves holds at all moments of a run, given which
  mappings are loaded in it.
-/

namespace TerminusMonitor

variable {μ : Type} {link : Link} {journal : Journal} {m m' : Monitor μ}
  {x : Moment (Monitor μ)}

/-- Whether a deed is what came of a request. -/
def Deed.concludes : Deed → Bool
  | settled _ | unsent .. => true
  | _ => false

theorem Deed.concludes_of_arranges {deed : Deed} (arranges : deed.arranges = true) :
    deed.concludes = false := by
  cases deed <;> first | rfl | cases arranges

namespace Monitor

/-- A step of a monitor between two moments, in a run that loads certain mappings. -/
inductive Stride (loads : Mapping → Prop) (m m' : Monitor μ) : Prop where
  | settled {completion : Completion Purpose} (taken : m' = m.settled completion)
  | unsent {tid : Tid} {handle : UInt32} {fault : TransportFault}
      (move : Move ⟨m, []⟩ [.unsent tid handle fault] ⟨m', []⟩)
  | other {hand hand' : List (Completion Purpose)} {deeds : List Deed}
      (moves : Moves ⟨m, hand⟩ deeds ⟨m', hand'⟩) (none : ∀ deed ∈ deeds, deed.concludes = false)
      (loaded : ∀ {mapping}, .mapped mapping ∈ deeds → loads mapping)

variable {loads : Mapping → Prop}

namespace Stride

theorem of_move {hand hand' : List (Completion Purpose)} {deeds : List Deed}
    (move : Move ⟨m, hand⟩ deeds ⟨m', hand'⟩)
    (loaded : ∀ {mapping}, .mapped mapping ∈ deeds → loads mapping) : m.Stride loads m' := by
  by_cases none : ∀ deed ∈ deeds, deed.concludes = false
  · exact .other (.single move) none loaded
  · cases move with
    | settled => exact .settled rfl
    | @unsent _ _ _ _ _ fault known found waiting free =>
      exact @Stride.unsent _ _ _ _ _ _ fault (.unsent known found waiting free)
    | _ => simp [Deed.concludes] at none

/-- Moves that are silent. -/
theorem of_moves {hand hand' : List (Completion Purpose)}
    (moves : Moves ⟨m, hand⟩ [] ⟨m', hand'⟩) : m.Stride loads m' :=
  .other moves (List.forall_mem_nil _) fun mem => by cases mem

theorem refl (m : Monitor μ) : m.Stride loads m := by
  have still : Moves ⟨m, []⟩ [] ⟨m, []⟩ := .done
  exact .of_moves still

/-- What each move preserves, a step preserves. -/
theorem preserves (stride : m.Stride loads m') (inv : Monitor μ → Prop)
    (step : ∀ {s : Scene μ} {deeds s'}, Move s deeds s' →
      (∀ {mapping}, .mapped mapping ∈ deeds → loads mapping) → inv s.monitor → inv s'.monitor)
    (start : inv m) : inv m' := by
  cases stride with
  | @settled completion taken =>
    rw [taken]
    have move : Move ⟨m, [completion]⟩ [.settled completion] ⟨m.settled completion, []⟩ := .settled
    exact step move (by simp) start
  | unsent move => exact step move (by simp) start
  | @other hand hand' deeds moves none loaded =>
    suffices ∀ {s s' : Scene μ} {deeds}, Moves s deeds s' →
        (∀ {mapping}, .mapped mapping ∈ deeds → loads mapping) → inv s.monitor → inv s'.monitor from
      this moves loaded start
    intro s s' deeds moves loaded start
    induction moves with
    | done => exact start
    | step move _ ih =>
      apply ih fun mem => loaded (List.mem_append_right _ mem)
      exact step move (fun mem => loaded (List.mem_append_left _ mem)) start

end Stride

/-- A step that leaves the sensors under their own keys. -/
def Strides (loads : Mapping → Prop) (x y : Moment (Monitor μ)) : Prop :=
  y.state.Keyed ∧ x.state.Stride loads y.state

theorem Keyed.strides {y : Moment (Monitor μ)} (keyed : x.state.Keyed)
    (stride : x.state.Stride loads y.state) : Strides loads x y :=
  ⟨stride.preserves _ (fun move _ => Keyed.move move) keyed, stride⟩

/-! ### Responses -/

/-- Each walk that is left to go on waits, and comes once. -/
structure Lining (m : Monitor μ) (tids : List Tid) : Prop where
  keyed : m.Keyed
  once : tids.Nodup
  waiting : ∀ {tid walk}, tid ∈ tids → m.walks.get? tid = some walk → walk.inFlight = false

theorem Keyed.lining (keyed : m.Keyed) : m.Lining m.waitingWalks where
  keyed := keyed
  once := Table.nodup_keys _
  waiting {tid walk} mem found := by
    obtain ⟨walk', found'⟩ := Table.mem_keys_iff.mp mem
    obtain ⟨found', waiting⟩ := Table.get?_filter_some found'
    cases found.symm.trans found'
    simpa using waiting

theorem Lining.goes_askNext {tid : Tid} {rest : List Tid} (lining : x.state.Lining (tid :: rest)) :
    Act.Ends (askNext tid) x.state link x.journal fun _ m journal =>
      Strides loads x ⟨m, journal⟩ ∧ m.Lining rest := by
  obtain ⟨notLater, once⟩ := List.nodup_cons.mp lining.once
  refine (ends_askNext_move x.state link x.journal fun found =>
    lining.waiting List.mem_cons_self found).mono ?_
  rintro _ m journal ⟨asked, others⟩
  have stride : x.state.Stride loads m := by
    rcases asked with ⟨_, rfl⟩ | move
    · exact .refl x.state
    · refine .of_move move ?_
      intro mapping mem
      have asks : .mapped mapping ∈ x.state.asks link x.journal [tid] := List.mem_append_left _ mem
      cases sends_of_mem_asks asks
  have strides : Strides loads x ⟨m, journal⟩ := lining.keyed.strides stride
  refine ⟨strides, strides.1, once, ?_⟩
  intro tid' walk mem found
  apply lining.waiting (List.mem_cons_of_mem _ mem)
  rw [← others, found]
  rintro rfl
  exact notLater mem

theorem strides_advancePlan (keyed : x.state.Keyed) :
    advancePlan.Goes (Strides loads) link x fun _ y => y.state.Keyed := by
  refine .bind (.one ⟨keyed.strides (.refl _), ?_⟩)
  intro m result
  cases result
  refine (Plan.Goes.each (fun tids (m : Monitor μ) => m.Lining tids) ?_ keyed.lining).mono
    fun _ _ lining => lining.keyed
  intro tid rest y lining
  exact lining.goes_askNext

theorem strides_complete (loads : Mapping → Prop) {completion : Completion Purpose}
    (keyed : x.state.Keyed) :
    Act.Ends (.ofTask (complete completion)) x.state link x.journal fun _ m journal =>
      Strides loads x ⟨m, journal⟩ := by
  rw [Act.ends_ofTask]
  refine ends_complete.mono ?_
  rintro _ _ _ rfl
  exact keyed.strides (.settled rfl)

theorem strides_responsePlan {eid : Eid} {bytes : List UInt8} (keyed : x.state.Keyed) :
    (responsePlan eid bytes).Goes (Strides loads) link x fun _ y => y.state.Keyed := by
  refine .bind (.one ?_)
  simp only [onRequests, onWatch, Watch.onRequests, Act.ends_on, Act.ends_ofTask]
  refine Correlator.ends_receive.mono ?_
  intro completion? c journal reception
  cases completion? with
  | none =>
    cases reception
    refine ⟨keyed.strides (.refl _), ?_⟩
    intro _ result
    cases result
    exact keyed
  | some completion =>
    obtain ⟨p, pending, cookie, rfl⟩ := reception.pending
    have shed : Move ⟨x.state, []⟩ []
        ⟨x.state.withRequests (x.state.closed completion.key), [completion]⟩ :=
      .shed pending cookie (.inl rfl)
    have strides : Strides loads x
        ⟨x.state.withRequests (x.state.closed completion.key), journal⟩ :=
      keyed.strides (.of_move shed (by simp))
    refine ⟨strides, ?_⟩
    intro _ result
    cases result
    refine .bind (.one ((strides_complete loads strides.1).mono ?_))
    intro _ m _ later
    exact ⟨later, fun _ _ => strides_advancePlan later.1⟩

/-! ### Ticks and updates -/

theorem strides_beginTick (loads : Mapping → Prop) {now : Nat} (keyed : x.state.Keyed) :
    Act.Ends (beginTick now) x.state link x.journal fun result m journal =>
      Strides loads x ⟨m, journal⟩ ∧ ∀ sensors, result = .ok sensors →
        sensors.Pairwise (fun e e' => e'.2.key ≠ e.2.key) ∧ ∀ e ∈ sensors, m.toWatch.Lists e := by
  simp only [beginTick, Act.ends_bind, Act.ends_get]
  split
  next =>
    simp only [Act.ends_bind, Act.ends_modify, Act.ends_get, Act.ends_pure]
    have strides (poller : Poller) (same : poller.outstanding = x.state.poller.outstanding) :
        Strides loads x ⟨{ x.state with poller }, x.journal⟩ := by
      have begins : Move ⟨x.state, []⟩ [] ⟨{ x.state with poller }, []⟩ :=
        .aside ⟨rfl, rfl, rfl, rfl, same, rfl, rfl⟩
      exact keyed.strides (.of_move begins (by simp))
    refine ⟨strides _ rfl, ?_⟩
    intro sensors result
    cases result
    have keyed := (strides _ rfl).1
    exact ⟨keyed.polled_once, fun _ => keyed.lists⟩
  next =>
    refine ⟨keyed.strides (.refl _), ?_⟩
    intro sensors result
    cases result
    exact ⟨.nil, List.forall_mem_nil _⟩

theorem polled_of_mem_polling {w : Watch Purpose} {now : Nat} {e : Eid × NumericSensor}
    {deed : Deed} (mem : deed ∈ w.polling link journal now e.1 e.2) :
    ∃ key, deed = .polled key e.2.key := by
  unfold Watch.polling at mem
  split at mem
  · split at mem
    · cases mem
    · dsimp only at mem
      split at mem
      · exact ⟨_, List.mem_singleton.mp mem⟩
      · cases mem
  · cases mem

theorem strides_tickPlan {now : Nat} (keyed : x.state.Keyed) :
    (tickPlan now).Goes (Strides loads) link x fun _ y => y.state.Keyed := by
  refine .bind (.one ((strides_beginTick loads keyed).mono ?_))
  rintro _ m journal ⟨strides, listed⟩
  refine ⟨strides, fun sensors result => ?_⟩
  obtain ⟨once, lists⟩ := listed sensors result
  -- Each sensor that is left is listed, whatever came of the others.
  refine (Plan.Goes.each (fun left (m : Monitor μ) => m.Keyed ∧
    left.Pairwise (fun e e' => e'.2.key ≠ e.2.key) ∧ ∀ e ∈ left, m.toWatch.Lists e) ?_
    ⟨strides.1, once, lists⟩).mono fun _ _ left => left.1
  rintro e rest y ⟨keyed, once, lists⟩
  obtain ⟨others, onceLater⟩ := List.pairwise_cons.mp once
  rw [ends_onWatch]
  refine (ends_pollSensor link y.journal now (lists e List.mem_cons_self)).mono ?_
  rintro _ w journal ⟨moves, kept⟩
  have strides : Strides loads y ⟨{ y.state with toWatch := w }, journal⟩ := by
    refine keyed.strides (.other moves ?_ ?_)
    · intro deed mem
      obtain ⟨key, rfl⟩ := polled_of_mem_polling mem
      rfl
    · intro mapping mem
      obtain ⟨key, same⟩ := polled_of_mem_polling mem
      cases same
  refine ⟨strides, strides.1, onceLater, ?_⟩
  intro e' mem
  exact kept (others e' mem) (lists e' (List.mem_cons_of_mem _ mem))

theorem strides_updatePlan [UpdateManager μ] {now : Nat} (keyed : x.state.Keyed) :
    (Operation.update now : Operation μ).plan.Goes (Strides loads) link x
      fun _ y => y.state.Keyed := by
  refine .bind (.one ?_)
  simp only [onRequests, onWatch, Watch.onRequests, Act.ends_on]
  refine Correlator.ends_update.mono ?_
  intro result c journal lapse
  cases lapse with
  | reversed => exact ⟨keyed.strides (.refl _), fun _ result => no_fault result.symm⟩
  | @expired completions c forward sheds late =>
    have ticks : Move ⟨x.state, []⟩ []
        ⟨x.state.withRequests { x.state.toCorrelator with clock := now }, []⟩ :=
      .aside ⟨rfl, rfl, rfl, rfl, rfl, rfl, rfl⟩
    have strides : Strides loads x ⟨x.state.withRequests c, journal⟩ :=
      keyed.strides (.of_moves (.step ticks (.of_sheds sheds rfl late)))
    refine ⟨strides, ?_⟩
    intro _ result
    cases result
    refine .bind ((Plan.Goes.each (fun _ (m : Monitor μ) => m.Keyed) ?_ strides.1).mono ?_)
    · intro completion rest y keyed
      exact (strides_complete loads keyed).mono fun _ _ _ strides => ⟨strides, strides.1⟩
    · intro _ y keyed
      exact .bind ((strides_advancePlan keyed).mono fun _ _ keyed => strides_tickPlan keyed)

theorem strides_beginWalk (loads : Mapping → Prop) {tid : Tid} (keyed : x.state.Keyed) :
    Act.Ends (beginWalk tid) x.state link x.journal fun _ m journal =>
      Strides loads x ⟨m, journal⟩ := by
  simp only [beginWalk, Act.ends_bind, Act.ends_get]
  cases known : x.state.termini.contains tid with
  | false => exact keyed.strides (.refl _)
  | true =>
    cases running : x.state.isDiscovering tid with
    | true =>
      simp only [Bool.not_true, Bool.false_eq_true, if_false, Act.ends_bind, Act.ends_get,
        running, if_true]
      exact keyed.strides (.refl _)
    | false =>
      simp only [Bool.not_true, Bool.false_eq_true, if_false, Act.ends_bind, Act.ends_get,
        running]
      obtain ⟨terminus, known⟩ := Table.contains_iff.mp known
      have begun : Move ⟨x.state, []⟩ [.begun tid]
          ⟨{ x.state with walks := x.state.walks.insert tid {} }, []⟩ :=
        .begun known (Table.contains_eq_false_iff.mp running)
      exact keyed.strides (.of_move begun (by simp))

end Monitor

open Monitor

/-! ### Operations and runs -/

theorem Operation.load_of_mapped {operation : Operation μ} {mapping : Mapping}
    (mem : .mapped mapping ∈ operation.arranged m) : operation = .load (.ok mapping) := by
  unfold arranged at mem
  split at mem
  · split at mem
    · simp at mem
    · split at mem <;> simp at mem
  · split at mem <;> simp at mem
  · split at mem <;> simp at mem
  · split at mem <;> simp at mem
  · cases List.mem_singleton.mp mem
    rfl
  · simp at mem
  · cases mem

variable [UpdateManager μ] {loads : Mapping → Prop}

/-- An operation that takes in nothing and asks for nothing is one step. -/
private theorem Operation.strides_one {operation : Operation μ} (keyed : x.state.Keyed)
    (loaded : ∀ {mapping}, operation = .load (.ok mapping) → loads mapping)
    (single : operation.plan = .one operation.act)
    (deeds : ∀ deed ∈ operation.deeds x.state link x.journal, deed ∈ operation.arranged x.state) :
    operation.plan.Goes (Strides loads) link x fun _ _ => True := by
  rw [single]
  refine .one ((Operation.ends_act keyed operation).mono ?_)
  intro _ m _ moves
  refine ⟨keyed.strides (.other moves ?_ ?_), fun _ _ => trivial⟩
  · intro deed mem
    exact Deed.concludes_of_arranges (arranges_of_mem_arranged (deeds deed mem))
  · intro mapping mem
    exact loaded (load_of_mapped (deeds _ mem))

theorem Operation.strides_plan (operation : Operation μ) (keyed : x.state.Keyed)
    (loaded : ∀ {mapping}, operation = .load (.ok mapping) → loads mapping) :
    operation.plan.Goes (Strides loads) link x fun _ _ => True := by
  have arranged {operation : Operation μ} {deed : Deed}
      (mem : deed ∈ operation.arranged x.state ++ [] ++ []) :
      deed ∈ operation.arranged x.state := by
    rwa [List.append_nil, List.append_nil] at mem
  cases operation with
  | discover tid =>
    refine .bind (.one ((strides_beginWalk loads keyed).mono ?_))
    intro _ _ _ strides
    refine ⟨strides, fun started _ => ?_⟩
    cases started with
    | true => exact (strides_advancePlan strides.1).mono fun _ _ _ => trivial
    | false => trivial
  | update => exact (strides_updatePlan keyed).mono fun _ _ _ => trivial
  | response => exact (strides_responsePlan keyed).mono fun _ _ _ => trivial
  | message eid bytes =>
    have responds (journal : Journal) :
        (responsePlan eid bytes).Goes (Strides loads) link ⟨x.state, journal⟩ fun _ _ => True :=
      (strides_responsePlan (x := ⟨x.state, journal⟩) keyed).mono fun _ _ _ => trivial
    simp only [plan]
    cases Header.ofBytes bytes with
    | error fault =>
      refine .bind (.one ?_)
      rw [Act.ends_lift, Effect.ends_remark]
      exact ⟨keyed.strides (.refl _), fun _ _ => responds _⟩
    | ok header =>
      dsimp only
      split
      next =>
        refine .one (ends_onRequest.mono ?_)
        intro _ m _ moves
        exact ⟨keyed.strides (.of_moves moves), fun _ _ => trivial⟩
      next => exact responds x.journal
  | _ => exact Operation.strides_one keyed loaded rfl fun _ mem => arranged mem

namespace Turn

/-- Whether a mapping is loaded in a run. -/
def Loads (turns : List (Turn μ)) (mapping : Mapping) : Prop :=
  ∃ t ∈ turns, t.operation = .load (.ok mapping)

/-- Each step of a run is one of the kinds. -/
theorem strides_moments (turns : List (Turn μ)) (keyed : m.Keyed) :
    (moments turns m).IsChain (Strides (Loads turns)) := by
  refine isChain_later (·.Keyed) turns ?_ (fun strides => strides.1)
    (fun _ _ _ strides => strides) ⟨m, []⟩ keyed
  intro t mem m keyed
  exact (t.operation.strides_plan keyed fun loaded => ⟨t, mem, loaded⟩).isChain

/-- What each move preserves holds at all moments of a run. -/
theorem moments_preserve (turns : List (Turn μ)) (keyed : m.Keyed) (inv : Monitor μ → Prop)
    (step : ∀ {s : Scene μ} {deeds s'}, Move s deeds s' →
      (∀ {mapping}, .mapped mapping ∈ deeds → Loads turns mapping) →
        inv s.monitor → inv s'.monitor)
    (start : inv m) : ∀ y ∈ moments turns m, inv y.state := by
  have chain := strides_moments turns keyed
  exact chain.induction (fun y => inv y.state) _
    (fun _ _ strides before => strides.2.preserves inv step before) fun _ => start

end Turn

end TerminusMonitor
