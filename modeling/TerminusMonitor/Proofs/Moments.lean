import TerminusMonitor.Proofs.Plan
import TerminusMonitor.Proofs.Turn

/-!
The moments of a run, also those within an operation.

An operation that takes in several outcomes, goes on with several walks or looks at several
sensors does so one by one; `Operation.plan` has a step for each. No step changes the paths of
the registered sensors more than once.

* `Operation.act_plan`: the plan of an operation is the operation;
* `Turn.moments`: the moments of a run, with all that was done since its start;
* `Turn.getLast?_moments`: the last of them is the end of the run;
* `Turn.isChain_later`: what each step does holds between each moment of a run and the next.
-/

namespace TerminusMonitor

variable {σ τ α β : Type} {μ : Type}

/-! ### Equal operations -/

/-- Operations whose runs end alike are equal. -/
theorem Act.ext_ends {act act' : Act σ α}
    (same : ∀ s link journal post, act.Ends s link journal post ↔ act'.Ends s link journal post) :
    act = act' := by
  funext s link journal
  exact (same s link journal fun r s' journal' => ((r, s'), journal') = act'.run s link journal).mpr
    rfl

/-- Runs end alike with what is equivalent. -/
theorem Act.ends_congr {act : Act σ α} {s : σ} {link : Link} {journal : Journal}
    {post post' : Except Fault α → σ → Journal → Prop}
    (same : ∀ r s journal, post r s journal ↔ post' r s journal) :
    act.Ends s link journal post ↔ act.Ends s link journal post' := same ..

theorem Act.discard_bind (act : Act σ α) (f : α → Act σ β) :
    (discard (act >>= f) : Act σ Unit) = act >>= fun a => discard (f a) := by
  refine Act.ext_ends fun s link journal post => ?_
  simp only [ends_discard, ends_bind]
  refine ends_congr fun result _ _ => ?_
  cases result <;> rfl

namespace Monitor

/-! ### Plans -/

/-- Going on with the walks that wait, one by one. -/
def advancePlan : Plan (Monitor μ) Unit := do
  let m ← .one get
  .each askNext m.waitingWalks

/-- Taking in a response. -/
def responsePlan (eid : Eid) (bytes : List UInt8) : Plan (Monitor μ) Unit := do
  match ← .one (onRequests (.ofTask (Correlator.receive eid bytes))) with
  | none => return
  | some completion =>
    .one (.ofTask (complete completion))
    advancePlan

/-- Begins a tick, if one is due; the sensors to look at. -/
def beginTick (now : Nat) : Act (Monitor μ) (List (Eid × NumericSensor)) := do
  let poller := (← get).poller
  if poller.running ∧ poller.nextTick ≤ now then
    modify fun m =>
      { m with poller := { m.poller with nextTick := timeAfter now m.poller.interval } }
    return (← get).polled
  else return []

/-- A tick, sensor by sensor. -/
def tickPlan (now : Nat) : Plan (Monitor μ) Unit := do
  let sensors ← .one (beginTick now)
  .each (fun e => onWatch (Watch.pollSensor .reading now e.1 e.2)) sensors

/-- Begins a walk through the records of a terminus; whether none was under way. -/
def beginWalk (tid : Tid) : Act (Monitor μ) Bool := do
  if !(← get).termini.contains tid then throw (.unknownTerminus tid)
  if (← get).isDiscovering tid then
    Effect.log (.discoveryRunning tid)
    return false
  else
    Effect.log (.discovering tid)
    modify fun m => { m with walks := m.walks.insert tid {} }
    return true

end Monitor

open Monitor

/-- An operation step by step. -/
def Operation.plan [UpdateManager μ] : Operation μ → Plan (Monitor μ) Unit
  | discover tid => do if ← .one (beginWalk tid) then advancePlan
  | update now => do
    let completions ← .one (onRequests (Correlator.update now))
    .each (fun completion => .ofTask (complete completion)) completions
    advancePlan
    tickPlan now
  | message eid bytes => do
    match Header.ofBytes bytes with
    | .ok header => if header.request then .one (onRequest eid bytes) else responsePlan eid bytes
    | .error fault =>
      .one (liftM (Effect.remark fault))
      responsePlan eid bytes
  | response eid bytes => responsePlan eid bytes
  | operation => .one operation.act

/-! ### Plans carried out -/

namespace Monitor

theorem act_each_askNext (tids : List Tid) :
    (Plan.each askNext tids : Plan (Monitor μ) Unit).act = askEach tids := by
  induction tids with
  | nil => rfl
  | cons tid rest ih => simp [Plan.each, askEach, ih]

theorem act_advancePlan : (advancePlan : Plan (Monitor μ) Unit).act = advance := by
  simp [advancePlan, advance, act_each_askNext]

theorem act_each_complete (completions : List (Completion Purpose)) :
    (Plan.each (fun completion => .ofTask (complete completion)) completions :
      Plan (Monitor μ) Unit).act = .ofTask (completeAll completions) := by
  induction completions with
  | nil => rfl
  | cons completion rest ih =>
    refine Act.ext_ends fun s link journal post => ?_
    simp [Plan.each, completeAll, ih]

theorem act_responsePlan (eid : Eid) (bytes : List UInt8) :
    (responsePlan eid bytes : Plan (Monitor μ) Unit).act = onResponse eid bytes := by
  simp only [responsePlan, onResponse, Plan.act_bind, Plan.act_one]
  refine bind_congr fun completion? => ?_
  cases completion? with
  | none => rfl
  | some completion => simp [act_advancePlan]

theorem ends_onWatch {act : Act (Watch Purpose) α} {m : Monitor μ} {link : Link}
    {journal : Journal} {post : Except Fault α → Monitor μ → Journal → Prop} :
    Act.Ends (onWatch act) m link journal post ↔
      Act.Ends act m.toWatch link journal fun r toWatch => post r { m with toWatch } := Iff.rfl

theorem act_each_pollSensor (now : Nat) (sensors : List (Eid × NumericSensor)) :
    (Plan.each (fun e => onWatch (Watch.pollSensor .reading now e.1 e.2)) sensors :
      Plan (Monitor μ) Unit).act = onWatch (Watch.pollSensors .reading now sensors) := by
  induction sensors with
  | nil => rfl
  | cons e rest ih =>
    refine Act.ext_ends fun s link journal post => ?_
    simp only [Plan.each, Watch.pollSensors, Plan.act_bind, Plan.act_one, ih, ends_onWatch,
      Act.ends_bind]

theorem act_tickPlan (now : Nat) :
    (tickPlan now : Plan (Monitor μ) Unit).act =
      discard (onWatch (Watch.poll .reading now)) := by
  refine Act.ext_ends fun m link journal post => ?_
  simp only [tickPlan, beginTick, Watch.poll, Plan.act_bind, Plan.act_one, act_each_pollSensor,
    Act.ends_bind, Act.ends_discard, ends_onWatch, Act.ends_get]
  by_cases due : m.poller.running ∧ m.poller.nextTick ≤ now
  · simp only [if_pos due, Act.ends_bind, Act.ends_modify, Act.ends_get, Act.ends_pure]
    refine Act.ends_congr fun result _ _ => ?_
    cases result <;> rfl
  · simp only [if_neg due]
    rfl

end Monitor

/-- The plan of an operation is the operation. -/
theorem Operation.act_plan [UpdateManager μ] (operation : Operation μ) :
    operation.plan.act = operation.act := by
  cases operation with
  | discover tid =>
    refine Act.ext_ends fun m link journal post => ?_
    simp only [plan, act, Monitor.discover, beginWalk, Plan.act_bind, Plan.act_one, Act.ends_bind,
      Act.ends_get]
    cases m.termini.contains tid with
    | false => exact Iff.rfl
    | true =>
      cases running : m.isDiscovering tid with
      | true => simp [running, Except.map]
      | false => simp [running, Except.map, act_advancePlan]
  | update now =>
    simp only [plan, act, Monitor.update, Plan.act_bind, Plan.act_one, act_each_complete,
      act_advancePlan, act_tickPlan]
    rw [Act.discard_bind]
    refine bind_congr fun completions => ?_
    rw [Act.discard_bind]
    refine bind_congr fun _ => ?_
    rw [Act.discard_bind]
    refine bind_congr fun _ => Act.ext_ends fun m link journal post => ?_
    simp only [Act.ends_bind, Act.ends_discard]
    refine Act.ends_congr fun result _ _ => ?_
    cases result <;> rfl
  | message eid bytes =>
    simp only [plan, act, onMessage]
    cases Header.ofBytes bytes with
    | error fault => simp [act_responsePlan]
    | ok header =>
      dsimp only
      split
      next => exact Plan.act_one _
      next => exact act_responsePlan eid bytes
  | response eid bytes => exact act_responsePlan eid bytes
  | _ => exact Plan.act_one _

/-! ### Runs -/

/-- A moment of a run whose journal goes on from that of an earlier one. -/
def Moment.since (x y : Moment σ) : Moment σ := ⟨y.state, x.journal ++ y.journal⟩

namespace Turn

variable [UpdateManager μ]

/-- The journal of a turn. -/
def journal (t : Turn μ) (m : Monitor μ) : Journal := t.operation.act.journal m t.link []

/-- The journal of turns. -/
def history : List (Turn μ) → Monitor μ → Journal
  | [], _ => []
  | t :: rest, m => t.journal m ++ history rest (t.after m)

theorem history_append (turns later : List (Turn μ)) (m : Monitor μ) :
    history (turns ++ later) m = history turns m ++ history later (run turns m) := by
  induction turns generalizing m with
  | nil => rfl
  | cons t rest ih => rw [List.cons_append, history, ih, history, List.append_assoc]; rfl

/-- The moments after each step of a turn. -/
def steps (t : Turn μ) (x : Moment (Monitor μ)) : List (Moment (Monitor μ)) :=
  (t.operation.plan.moments t.link ⟨x.state, []⟩).map x.since

/-- The moment after a turn. -/
def next (t : Turn μ) (x : Moment (Monitor μ)) : Moment (Monitor μ) :=
  x.since ⟨t.after x.state, t.journal x.state⟩

/-- The moments after each step of turns. -/
def later : List (Turn μ) → Moment (Monitor μ) → List (Moment (Monitor μ))
  | [], _ => []
  | t :: rest, x => t.steps x ++ later rest (t.next x)

/-- The moments of turns, with the one before them. -/
def moments (turns : List (Turn μ)) (m : Monitor μ) : List (Moment (Monitor μ)) :=
  ⟨m, []⟩ :: later turns ⟨m, []⟩

theorem getLast?_steps (t : Turn μ) (x : Moment (Monitor μ)) :
    (x :: t.steps x).getLast? = some (t.next x) := by
  have last := t.operation.plan.getLast?_moments t.link ⟨x.state, []⟩
  rw [Operation.act_plan] at last
  have start : x.since ⟨x.state, []⟩ = x := by simp [Moment.since]
  have steps : x :: t.steps x =
      (⟨x.state, []⟩ :: t.operation.plan.moments t.link ⟨x.state, []⟩).map x.since := by
    rw [List.map_cons, start, Turn.steps]
  rw [steps, List.getLast?_map, last]
  rfl

/-- The last moment after turns is the monitor after them, with all that they did. -/
theorem getLast?_later (turns : List (Turn μ)) (x : Moment (Monitor μ)) :
    (x :: later turns x).getLast? =
      some ⟨run turns x.state, x.journal ++ history turns x.state⟩ := by
  induction turns generalizing x with
  | nil => simp [later, run, history]
  | cons t rest ih =>
    obtain ⟨before, steps⟩ := List.getLast?_eq_some_iff.mp (t.getLast?_steps x)
    have rest := ih (t.next x)
    rw [later, ← List.cons_append, steps, List.append_assoc, List.singleton_append,
      List.getLast?_append, rest, Option.some_or]
    simp [next, Moment.since, run, history]

theorem getLast?_moments (turns : List (Turn μ)) (m : Monitor μ) :
    (moments turns m).getLast? = some ⟨run turns m, history turns m⟩ :=
  getLast?_later turns ⟨m, []⟩

/-- What each step of an operation does holds between each moment of a run and the next, given
that it keeps up what it rests on. -/
theorem isChain_later {rel : Moment (Monitor μ) → Moment (Monitor μ) → Prop}
    (inv : Monitor μ → Prop) (turns : List (Turn μ))
    (goes : ∀ t ∈ turns, ∀ {m}, inv m →
      (⟨m, []⟩ :: t.operation.plan.moments t.link ⟨m, []⟩).IsChain rel)
    (keeps : ∀ {y z : Moment (Monitor μ)}, rel y z → inv z.state)
    (since : ∀ (x : Moment (Monitor μ)) {y z}, rel y z → rel (x.since y) (x.since z))
    (x : Moment (Monitor μ)) (start : inv x.state) :
    (x :: later turns x).IsChain rel := by
  induction turns generalizing x with
  | nil => exact .singleton x
  | cons t rest ih =>
    obtain ⟨goesFirst, goesRest⟩ := List.forall_mem_cons.mp goes
    have first : (x :: t.steps x).IsChain rel := by
      have chain := List.isChain_map_of_isChain x.since (fun _ _ => since x) (goesFirst start)
      have head : x.since ⟨x.state, []⟩ = x := by simp [Moment.since]
      rwa [List.map_cons, head] at chain
    obtain ⟨before, steps⟩ := List.getLast?_eq_some_iff.mp (t.getLast?_steps x)
    have last : inv (t.next x).state :=
      first.induction (fun y => inv y.state) _ (fun _ _ goes _ => keeps goes) (fun _ => start) _
        (List.mem_of_getLast? (t.getLast?_steps x))
    rw [steps] at first
    rw [later, ← List.cons_append, steps]
    exact first.append_overlap (ih goesRest (t.next x) last) (List.cons_ne_nil _ _)

end Turn

end TerminusMonitor
