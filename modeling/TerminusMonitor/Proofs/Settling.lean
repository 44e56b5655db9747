import TerminusMonitor.Monitor.Update
import TerminusMonitor.Proofs.Outcome
import TerminusMonitor.Proofs.Table

/-!
What the outcome of a request changes, as a function of the monitor.

* `Monitor.settled`: the monitor after an outcome was taken in;
* `Monitor.ends_complete`: that is what `Monitor.complete` does, whatever it logs and
  publishes beside it.
-/

namespace TerminusMonitor

variable {link : Link} {journal : Journal}

@[simp] theorem NumericSensor.ends_publishAll (sensors : List NumericSensor)
    {post : Unit → Journal → Prop} :
    Effect.Ends (publishAll sensors) link journal post ↔
      post () (publishAll sensors link journal).2 := Iff.rfl

/-! ### Readings -/

/-- What the response to a request says. -/
def Correlator.understood {α : Type} (parse : Response → Except MessageFault α)
    (result : Except Fault Response) : Except Fault α :=
  result.bind fun response => (parse response).mapError .invalid

theorem Correlator.ends_understand {α : Type} {parse : Response → Except MessageFault α}
    {result : Except Fault Response} :
    Effect.Ends (understand parse result) link journal fun r _ => r = understood parse result := by
  cases result with
  | error fault => rfl
  | ok response =>
    unfold understand understood
    cases read : parse response with
    | error fault => simp [read, Except.bind, Except.mapError]
    | ok a => simp [read, Except.bind, Except.mapError]

/-- The sensor after the outcome of a request for its reading. -/
def NumericSensor.taken (s : NumericSensor) (result : Except Fault Response) : NumericSensor :=
  match Correlator.understood ReadSensor.parse result with
  | .ok answer => s.after answer
  | .error _ => s.fail

theorem NumericSensor.taken_key {s : NumericSensor} {result : Except Fault Response} :
    (s.taken result).key = s.key := by
  unfold taken
  split
  next =>
    unfold after
    split
    · split <;> rfl
    · rfl
    · rfl
  next => rfl

namespace Watch

variable {κ : Type} {w : Watch κ}

/-- The watch after the outcome of a request for a reading. -/
def settled (w : Watch κ) (key : SensorKey) (result : Except Fault Response) : Watch κ :=
  let w := { w with poller := { w.poller with outstanding := w.poller.outstanding.erase key } }
  match w.sensor? key with
  | none => w
  | some s => w.setSensor key (s.taken result)

/-- The outcome of a request for a reading changes no more than its sensor. -/
theorem termini_settled {key : SensorKey} {result : Except Fault Response} :
    (w.settled key result).termini = w.termini.modify key.tid fun t =>
      { t with sensors := t.sensors.modify key.sensor (·.taken result) } := by
  have poller {p : Poller} : ({ w with poller := p } : Watch κ).sensor? key = w.sensor? key := rfl
  simp only [settled, poller]
  cases known : w.sensor? key with
  | none =>
    refine (Table.modify_eq_self fun terminus found => ?_).symm
    have absent : terminus.sensors.get? key.sensor = none := by
      rwa [sensor?, found, Option.bind_some] at known
    have same : terminus.sensors.modify key.sensor (·.taken result) = terminus.sensors :=
      Table.modify_eq_self fun s listed => by cases absent.symm.trans listed
    rw [same]
  | some s =>
    dsimp only [setSensor]
    refine Table.modify_congr ?_
    intro terminus found
    rw [sensor?, found, Option.bind_some] at known
    have same : (terminus.sensors.modify key.sensor fun _ => s.taken result) =
        terminus.sensors.modify key.sensor (·.taken result) :=
      Table.modify_congr fun s' listed => by cases known.symm.trans listed; rfl
    rw [same]

theorem ends_complete {key : SensorKey} {result : Except Fault Response} :
    Task.Ends (complete key result) w link journal fun _ w' _ => w' = w.settled key result := by
  simp only [complete, Task.ends_bind, Task.ends_modify, Task.ends_get]
  split
  next unknown => simp [settled, unknown]
  next s known =>
    simp only [Task.ends_bind, Task.ends_lift]
    refine Correlator.ends_understand.mono ?_
    intro answer _ read
    subst read
    split
    next answer read =>
      simp [settled, known, NumericSensor.taken, read, NumericSensor.receive, NumericSensor.publish]
    next fault read => simp [settled, known, NumericSensor.taken, read, NumericSensor.publish]

end Watch

namespace Monitor

variable {μ : Type} {m : Monitor μ}

/-! ### Records -/

/-- The monitor after the end of a walk: the sensors found take the place of those the
terminus had. -/
def finished (m : Monitor μ) (tid : Tid) : Monitor μ :=
  match m.walks.get? tid with
  | none => m
  | some walk =>
    { m with
      walks := m.walks.erase tid
      termini := m.termini.modify tid fun t => { t with sensors := walk.sensors } }

/-- Only the walk that ends is over. -/
theorem walks_finished {tid tid' : Tid} :
    (m.finished tid).walks.get? tid' = if tid' = tid then none else m.walks.get? tid' := by
  unfold finished
  split
  next none =>
    split
    next eq => rw [eq, none]
    next => rfl
  next walk found => exact Table.get?_erase

theorem ends_finishWalk {tid : Tid} :
    Task.Ends (finishWalk tid) m link journal fun _ m' _ => m' = m.finished tid := by
  simp only [finishWalk, Task.ends_bind, Task.ends_get]
  cases found : m.walks.get? tid with
  | none => simp [finished, found]
  | some walk =>
    simp only [Task.ends_bind, Task.ends_modify, Task.ends_get]
    cases known : m.termini.get? tid with
    | none =>
      have same : (m.termini.modify tid fun t => { t with sensors := walk.sensors }) = m.termini :=
        Table.modify_eq_self fun t found => by rw [known] at found; cases found
      simp [finished, found, same]
    | some terminus => simp [finished, found]

/-- The monitor that has noted the sensor that a record describes, if it describes one. -/
def noted (m : Monitor μ) (tid : Tid) (record : Record) : Monitor μ :=
  match record.sensor? with
  | none => m
  | some r =>
    let sensor := m.newSensor tid r
    { m with walks := m.walks.modify tid fun w =>
        { w with sensors := w.sensors.insert sensor.key.sensor sensor } }

/-- The monitor after the outcome of a request for a record. -/
def recorded (m : Monitor μ) (tid : Tid) (result : Except Fault Response) : Monitor μ :=
  match m.walks.get? tid with
  | none => m
  | some walk =>
    match Correlator.understood FetchRecord.parse result with
    | .error _ => m.finished tid
    | .ok (record, next) =>
      let m := m.noted tid record
      if next = 0 ∨ walk.seen.contains next then m.finished tid
      else { m with walks := m.walks.modify tid (·.follow next) }

/-- Noting a sensor leaves alone what a walk has seen. -/
theorem noted_walk {tid : Tid} {walk : Walk} (record : Record)
    (found : m.walks.get? tid = some walk) :
    ∃ sensors, (m.noted tid record).walks.get? tid = some { walk with sensors } := by
  unfold noted
  split
  next => exact ⟨walk.sensors, found⟩
  next r _ => exact ⟨_, by rw [Table.get?_modify, if_pos rfl, found]; rfl⟩

private theorem ends_follow (m : Monitor μ) (link : Link) (journal : Journal) (tid : Tid)
    (walk : Walk) (next : UInt32) :
    Task.Ends (do
        if next = 0 then finishWalk tid
        else if walk.seen.contains next then
          Effect.log (.repositoryLoops tid next)
          finishWalk tid
        else
          modify fun m => { m with walks := m.walks.modify tid (·.follow next) })
      m link journal fun _ m' _ =>
      m' = if next = 0 ∨ walk.seen.contains next then m.finished tid
        else { m with walks := m.walks.modify tid (·.follow next) } := by
  by_cases last : next = 0
  · simp only [last, if_true, true_or]
    exact ends_finishWalk
  · cases seen : walk.seen.contains next with
    | true =>
      simp only [last, if_false, or_true, if_true, Task.ends_bind, Task.ends_lift, Effect.ends_log]
      exact ends_finishWalk
    | false => simp [last]

theorem ends_recordComplete {tid : Tid} {handle : UInt32} {result : Except Fault Response} :
    Task.Ends (recordComplete tid handle result) m link journal fun _ m' _ =>
      m' = m.recorded tid result := by
  simp only [recordComplete, Task.ends_bind, Task.ends_get, isDiscovering]
  cases found : m.walks.get? tid with
  | none => simp [recorded, found, Table.contains]
  | some walk =>
    have known : m.walks.contains tid = true := Table.contains_iff.mpr ⟨walk, found⟩
    simp only [known, Bool.not_true, Bool.false_eq_true, if_false, Task.ends_bind, Task.ends_lift]
    refine Correlator.ends_understand.mono ?_
    intro answer journal read
    subst read
    split
    next fault read =>
      simp only [Task.ends_bind, Task.ends_lift, Effect.ends_log]
      exact ends_finishWalk.mono fun _ m' _ ended => by simp [ended, recorded, found, read]
    next record next read =>
      obtain ⟨sensors, found'⟩ := noted_walk record found
      have goesOn :=
        ends_follow (m.noted tid record) link journal tid { walk with sensors } next
      simp only [recorded, found, read]
      unfold noted at found' goesOn ⊢
      cases described : record.sensor? with
      | none =>
        simp only [described] at found' goesOn ⊢
        simp only [Task.ends_bind, Task.ends_get, found']
        exact goesOn
      | some r =>
        simp only [described] at found' goesOn ⊢
        simp only [Task.ends_bind, Task.ends_modify, Task.ends_get, found']
        exact goesOn

/-! ### Outcomes -/

/-- The end of a walk concerns neither requests nor polling. -/
theorem finished_frame (m : Monitor μ) (tid : Tid) :
    (m.finished tid).toCorrelator = m.toCorrelator ∧ (m.finished tid).poller = m.poller := by
  unfold finished
  split <;> exact ⟨rfl, rfl⟩

/-- Nor does a record that comes. -/
theorem recorded_frame {tid : Tid} {result : Except Fault Response} :
    (m.recorded tid result).toCorrelator = m.toCorrelator ∧
      (m.recorded tid result).poller = m.poller := by
  have noted {record : Record} : (m.noted tid record).toCorrelator = m.toCorrelator ∧
      (m.noted tid record).poller = m.poller := by
    unfold noted
    split <;> exact ⟨rfl, rfl⟩
  unfold recorded
  split
  next => exact ⟨rfl, rfl⟩
  next =>
    split
    next => exact finished_frame m tid
    next =>
      dsimp only
      split
      next =>
        obtain ⟨requests, poller⟩ := finished_frame (m.noted tid _) tid
        exact ⟨requests.trans noted.1, poller.trans noted.2⟩
      next => exact noted

/-- Neither concerns the inventory. -/
theorem finished_inventory {tid : Tid} : (m.finished tid).inventory = m.inventory := by
  unfold finished
  split <;> rfl

theorem recorded_inventory {tid : Tid} {result : Except Fault Response} :
    (m.recorded tid result).inventory = m.inventory := by
  have noted {record : Record} : (m.noted tid record).inventory = m.inventory := by
    unfold noted
    split <;> rfl
  unfold recorded
  split
  next => rfl
  next =>
    split
    next => exact finished_inventory
    next =>
      dsimp only
      split
      next => exact finished_inventory.trans noted
      next => exact noted

/-- The monitor after the outcome of a request. -/
def settled (m : Monitor μ) (completion : Completion Purpose) : Monitor μ :=
  match completion.cookie with
  | .reading key => { m with toWatch := m.toWatch.settled key completion.result }
  | .record tid _ => m.recorded tid completion.result
  | .effecter _ _ => m

theorem ends_complete {completion : Completion Purpose} :
    Task.Ends (complete completion) m link journal fun _ m' _ => m' = m.settled completion := by
  obtain ⟨key, cookie, result⟩ := completion
  cases cookie with
  | reading sensor =>
    rw [complete, Task.ends_on]
    exact Watch.ends_complete.mono fun _ w' _ ended => by rw [ended]; rfl
  | record tid handle => exact ends_recordComplete
  | effecter path property =>
    simp only [complete, effecterComplete, Task.ends_lift, Effect.ends_bind]
    refine Correlator.ends_understand.mono ?_
    intro answer _ read
    cases answer <;> simp [settled]

/-- Outcomes do not concern the other requests. -/
theorem settled_toCorrelator {completion : Completion Purpose} :
    (m.settled completion).toCorrelator = m.toCorrelator := by
  obtain ⟨key, cookie, result⟩ := completion
  cases cookie with
  | reading sensor =>
    simp only [settled, Watch.settled]
    split <;> rfl
  | record => exact recorded_frame.1
  | effecter => rfl

/-- The outcome of a request for a reading clears the mark of the sensor. Nothing else
about polling changes, and no other outcome changes anything about it. -/
theorem settled_poller (m : Monitor μ) (completion : Completion Purpose) :
    (m.settled completion).poller =
      match completion.cookie with
      | .reading key => { m.poller with outstanding := m.poller.outstanding.erase key }
      | _ => m.poller := by
  obtain ⟨key, cookie, result⟩ := completion
  cases cookie with
  | reading sensor =>
    simp only [settled, Watch.settled]
    split <;> rfl
  | record tid handle => exact recorded_frame.2
  | effecter => rfl

theorem settled_inventory {completion : Completion Purpose} :
    (m.settled completion).inventory = m.inventory := by
  obtain ⟨key, cookie, result⟩ := completion
  cases cookie with
  | record => exact recorded_inventory
  | _ => rfl

theorem settled_outstanding (m : Monitor μ) (completion : Completion Purpose) :
    (m.settled completion).poller.outstanding =
      match completion.cookie with
      | .reading key => m.poller.outstanding.erase key
      | _ => m.poller.outstanding := by
  rw [settled_poller]
  cases completion.cookie <;> rfl

end Monitor

end TerminusMonitor
