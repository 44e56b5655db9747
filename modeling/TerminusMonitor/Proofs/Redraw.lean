import TerminusMonitor.Proofs.Additions
import TerminusMonitor.Proofs.Display

/-!
Each step of a monitor redraws its sensors.

Whatever a step does to the registry is told to the display in the same step: a sensor that is
changed or found is published, and the object of one that leaves is removed.

* `Refreshes`: what a step does, with the sensors still filed well;
* `Monitor.refreshes_replaced`: so does a step that gives a terminus other sensors, be it that
  they are found, lost or removed;
* `Monitor.refreshes_setSensor`: so does one that changes a sensor in place;
* `Monitor.refreshes_finishWalk`, `Monitor.refreshes_complete`, `Monitor.refreshes_pollSensor` and
  the others are the steps of the operations.
-/

namespace TerminusMonitor

variable {μ : Type} {link : Link} {journal journal' : Journal} {m m' : Monitor μ}
  {x y z : Moment (Monitor μ)} {key : SensorKey} {s : NumericSensor} {tid : Tid}

/-! ### Steps -/

/-- A step redraws the sensors that it changes, and leaves all filed well. -/
def Refreshes (x y : Moment (Monitor μ)) : Prop :=
  y.state.Filed ∧ ∃ gone shown, Redraws x y gone shown

/-- A step that neither changes a registered sensor nor calls the display. -/
structure IsQuiet (x y : Moment (Monitor μ)) : Prop where
  sensors : ∀ key, y.state.sensor? key = x.state.sensor? key
  calls : y.journal.calls = x.journal.calls

namespace IsQuiet

theorem mem_sensors (quiet : IsQuiet x y) : s ∈ y.state.sensors ↔ s ∈ x.state.sensors := by
  simp only [Monitor.mem_sensors, quiet.sensors]

theorem refreshes (quiet : IsQuiet x y) (filed : y.state.Filed) : Refreshes x y := by
  refine ⟨filed, [], [], ⟨by simp [quiet.calls], ?_, by simp, fun mem => .inr ?_⟩⟩
  · intro s
    constructor
    · intro mem
      cases mem
    · rintro ⟨mem, left⟩
      rw [filed.mem_sensors.mp (quiet.mem_sensors.mpr mem)] at left
      cases left
  · exact quiet.mem_sensors.mp mem

/-- What goes before a step without being seen is part of it. -/
theorem trans_refreshes (quiet : IsQuiet x y) (later : Refreshes y z) : Refreshes x z := by
  obtain ⟨filed, gone, shown, redraws⟩ := later
  refine ⟨filed, gone, shown, ⟨?_, ?_, redraws.drawn, fun mem => ?_⟩⟩
  · rw [redraws.calls, quiet.calls]
  · intro s
    rw [redraws.left, quiet.mem_sensors]
  · exact (redraws.kept mem).imp_right quiet.mem_sensors.mp

end IsQuiet

theorem Journal.calls_append (journal journal' : Journal) :
    (journal ++ journal').calls = journal.calls ++ journal'.calls :=
  List.filter_append ..

@[simp] theorem Journal.calls_logged (journal : Journal) (notice : Notice) :
    Journal.calls (journal ++ [.logged notice]) = journal.calls :=
  (calls_append ..).trans (List.append_nil _)

/-- Steps that go on from an earlier journal do the same. -/
theorem Refreshes.since (x : Moment (Monitor μ)) (refreshes : Refreshes y z) :
    Refreshes (x.since y) (x.since z) := by
  obtain ⟨filed, gone, shown, redraws⟩ := refreshes
  refine ⟨filed, gone, shown, ⟨?_, redraws.left, redraws.drawn, redraws.kept⟩⟩
  simp only [Moment.since, Journal.calls_append, redraws.calls, List.append_assoc]

/-- Events that are not about objects leave the calls as they are. -/
theorem Journal.Grows.calls (grows : journal.Grows (fun event => event.draws = false) journal') :
    journal'.calls = journal.calls := by
  obtain ⟨events, rfl, silent⟩ := grows
  have none : Journal.calls events = [] := by
    refine List.filter_eq_nil_iff.mpr fun event mem => ?_
    simp [silent event mem]
  rw [calls_append, none, List.append_nil]

/-! ### The effects that call the display -/

theorem Effect.journal_removeAll (paths : List String) :
    (removeAll paths link journal).2 = journal ++ paths.map .removed := by
  induction paths generalizing journal with
  | nil => exact (List.append_nil journal).symm
  | cons path rest ih =>
    have first : (removeAll (path :: rest) link journal).2 =
        (removeAll rest link (journal ++ [.removed path])).2 := rfl
    rw [first, ih, List.append_assoc]
    rfl

theorem NumericSensor.journal_publishAll (sensors : List NumericSensor) :
    (publishAll sensors link journal).2 =
      journal ++ sensors.map fun s => .published s.path s.properties := by
  induction sensors generalizing journal with
  | nil => exact (List.append_nil journal).symm
  | cons s rest ih =>
    have first : (publishAll (s :: rest) link journal).2 =
        (publishAll rest link (journal ++ [.published s.path s.properties])).2 := rfl
    rw [first, ih, List.append_assoc]
    rfl

theorem Journal.calls_removed (paths : List String) :
    Journal.calls (paths.map .removed) = paths.map .removed :=
  List.filter_eq_self.mpr (by simp [Event.draws])

theorem Journal.calls_published (sensors : List NumericSensor) :
    Journal.calls (sensors.map fun s => .published s.path s.properties) =
      sensors.map fun s => .published s.path s.properties :=
  List.filter_eq_self.mpr (by simp [Event.draws])

namespace Monitor

/-! ### Sensors that take the place of others -/

/-- When the sensors of a terminus are replaced, the objects of those that are not found again
are removed, and all that are found are published. -/
theorem refreshes_replaced {terminus : Terminus} (found : Table SensorId NumericSensor)
    (filed : m.Filed) (known : m.termini.get? tid = some terminus)
    (after : ∀ key, m'.sensor? key =
      if key.tid = tid then found.get? key.sensor else m.sensor? key)
    (fine : ∀ {sensor s}, found.get? sensor = some s → s.IsAt ⟨tid, sensor⟩)
    (walks : ∀ {tid walk}, m'.walks.get? tid = some walk → m.walks.get? tid = some walk)
    (calls : journal'.calls = journal.calls ++
      ((terminus.sensors.values.filter fun s => !found.contains s.key.sensor).map
        (·.path)).map .removed ++
      found.values.map fun s => .published s.path s.properties) :
    Refreshes ⟨m, journal⟩ ⟨m', journal'⟩ := by
  have here {key : SensorKey} (own : key.tid = tid) :
      m.sensor? key = terminus.sensors.get? key.sensor := by
    rw [Watch.sensor?, own, known, Option.bind_some]
  refine ⟨filed.replaced after fine walks, _, found.values, ⟨calls, ?_, ?_, ?_⟩⟩
  · intro s
    change _ ↔ _ ∧ m'.sensor? s.key = none
    rw [List.mem_filter, filed.mem_sensors, after, Bool.not_eq_true', Table.contains_eq_false_iff]
    constructor
    · rintro ⟨mem, lost⟩
      obtain ⟨sensor, listed⟩ := Table.mem_values_iff.mp mem
      have own : s.key = ⟨tid, sensor⟩ := filed.keyed.termini known listed
      have ownTid : s.key.tid = tid := by rw [own]
      constructor
      · rw [here ownTid, own, listed]
      · rw [if_pos ownTid, lost]
    · rintro ⟨registered, left⟩
      split at left
      next own => exact ⟨Table.mem_values_iff.mpr ⟨_, here own ▸ registered⟩, left⟩
      next => cases registered.symm.trans left
  · intro s mem
    obtain ⟨sensor, listed⟩ := Table.mem_values_iff.mp mem
    apply mem_sensors.mpr
    exists ⟨tid, sensor⟩
    rw [after, if_pos rfl, listed]
  · intro s mem
    obtain ⟨key, registered⟩ := mem_sensors.mp mem
    rw [after] at registered
    split at registered
    next => exact .inl (Table.mem_values_iff.mpr ⟨_, registered⟩)
    next => exact .inr (mem_sensors.mpr ⟨key, registered⟩)

/-- The objects of a terminus that is removed are removed with it. -/
theorem refreshes_removed {terminus : Terminus} (filed : m.Filed)
    (known : m.termini.get? tid = some terminus)
    (after : ∀ key, m'.sensor? key = if key.tid = tid then none else m.sensor? key)
    (walks : m'.walks = m.walks.erase tid)
    (calls : journal'.calls =
      journal.calls ++ (terminus.sensors.values.map (·.path)).map .removed) :
    Refreshes ⟨m, journal⟩ ⟨m', journal'⟩ := by
  apply refreshes_replaced ∅ filed known after
  · intro sensor s listed
    cases listed
  · intro tid walk found
    exact Table.get?_erase_some (walks ▸ found)
  · have all : (terminus.sensors.values.filter fun s =>
        !Table.contains (∅ : Table SensorId NumericSensor) s.key.sensor) =
          terminus.sensors.values := List.filter_eq_self.mpr fun _ _ => rfl
    rw [all, calls]
    exact (List.append_nil _).symm

/-- The sensors of a terminus that is lost are published. -/
theorem refreshes_lost {terminus : Terminus} (filed : m.Filed)
    (known : m.termini.get? tid = some terminus)
    (calls : journal'.calls = journal.calls ++
      (terminus.sensors.mapValues fun _ s => s.lose).values.map fun s =>
        .published s.path s.properties) :
    Refreshes ⟨m, journal⟩
      ⟨m.modifyTerminus tid fun t =>
        { t with sensors := terminus.sensors.mapValues fun _ s => s.lose, reachable := false },
        journal'⟩ := by
  apply refreshes_replaced (terminus.sensors.mapValues fun _ s => s.lose) filed known
  · intro key
    rw [sensor?_modifyTerminus, known, Option.bind_some]
  · intro sensor s listed
    rw [Table.get?_mapValues] at listed
    obtain ⟨s, before, rfl⟩ := Option.map_eq_some_iff.mp listed
    have registered : m.sensor? ⟨tid, sensor⟩ = some s :=
      Option.bind_eq_some_iff.mpr ⟨terminus, known, before⟩
    exact (filed.termini registered).lose
  · exact id
  · have none : (terminus.sensors.values.filter fun s =>
        !(terminus.sensors.mapValues fun _ s => s.lose).contains s.key.sensor) = [] := by
      refine List.filter_eq_nil_iff.mpr fun s mem => ?_
      obtain ⟨sensor, listed⟩ := Table.mem_values_iff.mp mem
      have own : s.key = ⟨tid, sensor⟩ := filed.keyed.termini known listed
      simp [own, Table.contains, Table.get?_mapValues, listed]
    rw [none, calls]
    exact congrArg (· ++ _) (List.append_nil _).symm

/-! ### Walks -/

theorem refreshes_finishWalk (filed : m.Filed) :
    Task.Ends (finishWalk tid) m link journal fun _ m' journal' =>
      Refreshes ⟨m, journal⟩ ⟨m', journal'⟩ := by
  simp only [finishWalk, Task.ends_bind, Task.ends_get]
  cases found : m.walks.get? tid with
  | none => exact IsQuiet.refreshes ⟨fun _ => rfl, rfl⟩ filed
  | some walk =>
    simp only [Task.ends_bind, Task.ends_modify, Task.ends_get]
    cases known : m.termini.get? tid with
    | none => exact IsQuiet.refreshes ⟨fun _ => rfl, rfl⟩ filed.eraseWalk
    | some terminus =>
      simp only [Task.ends_bind, Task.ends_lift, Effect.ends_removeAll, Task.ends_modify,
        NumericSensor.ends_publishAll, Effect.ends_log, Effect.journal_removeAll,
        NumericSensor.journal_publishAll]
      apply refreshes_replaced walk.sensors filed known
      · intro key
        refine (sensor?_modifyTerminus (m := m)).trans ?_
        rw [known, Option.bind_some]
      · exact filed.walks found
      · exact Table.get?_erase_some
      · simp only [Journal.calls_append, Journal.calls_removed, Journal.calls_published]
        exact List.append_nil _

/-- What is seen of an effect that calls no display is nothing. -/
theorem ends_quiet {α : Type} {effect : Effect α}
    (adds : effect.Adds fun event => event.draws = false) :
    effect.Ends link journal fun _ journal' => journal'.calls = journal.calls :=
  (adds link journal).mono fun _ _ grows => grows.calls

/-- A walk goes on to its next record, or ends. -/
private theorem refreshes_follow (next : UInt32) (quiet : IsQuiet x ⟨m, journal⟩)
    (filed : m.Filed) :
    Task.Ends (do
        let some walk := (← get).walks.get? tid | return
        if next = 0 then finishWalk tid
        else if walk.seen.contains next then
          Effect.log (.repositoryLoops tid next)
          finishWalk tid
        else
          modify fun m => { m with walks := m.walks.modify tid (·.follow next) })
      m link journal fun _ m' journal' => Refreshes x ⟨m', journal'⟩ := by
  simp only [Task.ends_bind, Task.ends_get]
  split
  next walk _ =>
    split
    next => exact (refreshes_finishWalk filed).mono fun _ _ _ => quiet.trans_refreshes
    next =>
      split
      next =>
        simp only [Task.ends_bind, Task.ends_lift, Effect.ends_log]
        have logged : IsQuiet x ⟨m, journal ++ [.logged (.repositoryLoops tid next)]⟩ :=
          ⟨quiet.sensors, by simp [quiet.calls]⟩
        exact (refreshes_finishWalk filed).mono fun _ _ _ => logged.trans_refreshes
      next => exact IsQuiet.refreshes ⟨quiet.sensors, quiet.calls⟩ (filed.modifyWalk filed.walks)
  next => exact quiet.refreshes filed

theorem refreshes_recordComplete {handle : UInt32} {result : Except Fault Response}
    (filed : m.Filed) :
    Task.Ends (recordComplete tid handle result) m link journal fun _ m' journal' =>
      Refreshes ⟨m, journal⟩ ⟨m', journal'⟩ := by
  simp only [recordComplete, Task.ends_bind, Task.ends_get]
  split
  next => exact IsQuiet.refreshes ⟨fun _ => rfl, Journal.calls_logged ..⟩ filed
  next =>
    simp only [Task.ends_bind, Task.ends_lift]
    refine (ends_quiet (Correlator.adds_understand (fun _ => rfl) _ _)).mono ?_
    intro answer journal₁ calls
    split
    next fault =>
      simp only [Task.ends_bind, Task.ends_lift, Effect.ends_log]
      have logged : IsQuiet ⟨m, journal⟩
          ⟨m, journal₁ ++ [.logged (.recordFailed tid handle fault)]⟩ :=
        ⟨fun _ => rfl, by simp [calls]⟩
      exact (refreshes_finishWalk filed).mono fun _ _ _ => logged.trans_refreshes
    next record next =>
      have noted : (m.noted tid record).Filed := filed.noted
      unfold Monitor.noted at noted
      cases described : record.sensor? with
      | none => exact refreshes_follow next ⟨fun _ => rfl, calls⟩ filed
      | some r =>
        rw [described] at noted
        simp only [Task.ends_bind, Task.ends_modify]
        exact refreshes_follow next ⟨fun _ => rfl, calls⟩ noted

/-! ### Readings -/

/-- A sensor that is changed in place is published. -/
theorem refreshes_setSensor {s' : NumericSensor} (quiet : IsQuiet x ⟨m, journal⟩) (filed : m.Filed)
    (known : m.sensor? key = some s) (isAt : s'.IsAt key) :
    Refreshes x ⟨{ m with toWatch := m.toWatch.setSensor key s' },
      journal ++ [.published s'.path s'.properties]⟩ := by
  refine quiet.trans_refreshes ?_
  have after (key' : SensorKey) :
      ({ m with toWatch := m.toWatch.setSensor key s' } : Monitor μ).sensor? key' =
        if key' = key then some s' else m.sensor? key' := by
    refine sensor?_setSensor.trans ?_
    rw [known, Option.map_some]
  have calls : Journal.calls (journal ++ [.published s'.path s'.properties]) =
      journal.calls ++ [.published s'.path s'.properties] := Journal.calls_append ..
  refine ⟨filed.setSensor isAt, [], [s'], ⟨by simpa using calls, ?_, ?_, ?_⟩⟩
  · intro s₀
    simp only [List.not_mem_nil, after, false_iff, not_and]
    intro mem left
    split at left
    next => cases left
    next => cases (filed.mem_sensors.mp mem).symm.trans left
  · intro s₀ mem
    obtain rfl := List.mem_singleton.mp mem
    exact mem_sensors.mpr ⟨key, (after key).trans (if_pos rfl)⟩
  · intro s₀ mem
    obtain ⟨key', registered⟩ := mem_sensors.mp mem
    rw [after] at registered
    split at registered
    next => cases registered; exact .inl (List.mem_singleton.mpr rfl)
    next => exact .inr (mem_sensors.mpr ⟨key', registered⟩)

/-- The outcome of a request for a reading is published. -/
theorem refreshes_takeReading {result : Except Fault Response} (filed : m.Filed) :
    Task.Ends (Watch.complete key result) m.toWatch link journal fun _ w' journal' =>
      Refreshes ⟨m, journal⟩ ⟨{ m with toWatch := w' }, journal'⟩ := by
  simp only [Watch.complete, Task.ends_bind, Task.ends_modify, Task.ends_get]
  split
  next => exact IsQuiet.refreshes ⟨fun _ => rfl, Journal.calls_logged ..⟩ (filed.congr rfl rfl)
  next s known =>
    have isAt : s.IsAt key := filed.termini known
    have filed₁ (poller : Poller) : ({ m with poller } : Monitor μ).Filed := filed.congr rfl rfl
    simp only [Task.ends_bind, Task.ends_lift]
    refine (ends_quiet (Correlator.adds_understand (fun _ => rfl) _ _)).mono ?_
    intro answer journal₁ calls
    cases answer with
    | error fault =>
      simp only [Task.ends_bind, Task.ends_lift, Effect.ends_log]
      exact refreshes_setSensor (m := { m with poller := _ })
        ⟨fun _ => rfl, (Journal.calls_logged ..).trans calls⟩ (filed₁ _) known isAt.fail
    | ok answer =>
      simp only [Task.ends_bind, Task.ends_lift, NumericSensor.receive, Effect.ends_bind]
      refine (ends_quiet (Effect.adds_logAll (fun _ => rfl) _)).mono fun _ _ logged => ?_
      exact refreshes_setSensor (m := { m with poller := _ })
        ⟨fun _ => rfl, logged.trans calls⟩ (filed₁ _) known (isAt.after answer)

/-- The outcome of a request is taken in. -/
theorem refreshes_complete {completion : Completion Purpose} (filed : m.Filed) :
    Task.Ends (complete completion) m link journal fun _ m' journal' =>
      Refreshes ⟨m, journal⟩ ⟨m', journal'⟩ := by
  obtain ⟨key, cookie, result⟩ := completion
  cases cookie with
  | reading sensor => exact refreshes_takeReading filed
  | record => exact refreshes_recordComplete filed
  | effecter path property =>
    simp only [complete, effecterComplete, Task.ends_lift, Effect.ends_bind]
    refine (ends_quiet (Correlator.adds_understand (fun _ => rfl) _ _)).mono ?_
    intro answer journal₁ calls
    cases answer <;>
      exact IsQuiet.refreshes ⟨fun _ => rfl, (Journal.calls_logged ..).trans calls⟩ filed

/-! ### Requests -/

/-- A request that is registered is nothing to see on the display. -/
theorem ends_register_quiet {κ : Type} {c : Correlator κ} {eid : Eid} {request : Request}
    {cookie : κ} :
    Act.Ends (Correlator.register eid request cookie) c link journal fun _ _ journal' =>
      journal'.calls = journal.calls := by
  have adds : (Correlator.register eid request cookie).Adds fun event => event.draws = false :=
    Correlator.adds_register (fun _ => rfl) (fun _ => rfl) (fun _ _ _ => rfl) eid request cookie
  exact (adds c link journal).mono fun _ _ _ grows => grows.calls

theorem refreshes_askNext (filed : m.Filed) :
    Act.Ends (askNext tid) m link journal fun _ m' journal' =>
      Refreshes ⟨m, journal⟩ ⟨m', journal'⟩ := by
  simp only [askNext, Act.ends_bind, Act.ends_get]
  cases m.termini.get? tid with
  | none => exact IsQuiet.refreshes ⟨fun _ => rfl, rfl⟩ filed.eraseWalk
  | some terminus =>
    simp only [Act.ends_bind, Act.ends_get]
    cases found : m.walks.get? tid with
    | none => exact IsQuiet.refreshes ⟨fun _ => rfl, rfl⟩ filed
    | some walk =>
      obtain ⟨payload, written⟩ := FetchRecord.request_eq walk.next
      simp only [written, Act.ends_bind, Act.ofMessage, Act.ends_pure, Act.ends_outcome, onRequests,
        onWatch, Watch.onRequests, Act.ends_on]
      refine ends_register_quiet.mono fun result c journal₁ calls => ?_
      have filed₁ : (m.withRequests c).Filed := filed.congr rfl rfl
      have quiet : IsQuiet ⟨m, journal⟩ ⟨m.withRequests c, journal₁⟩ := ⟨fun _ => rfl, calls⟩
      cases result with
      | ok iid =>
        exact IsQuiet.refreshes ⟨fun _ => rfl, calls⟩ (filed₁.modifyWalk filed₁.walks)
      | error fault =>
        cases fault with
        | exhausted =>
          exact IsQuiet.refreshes ⟨fun _ => rfl, (Journal.calls_logged ..).trans calls⟩ filed₁
        | state => exact quiet.refreshes filed₁
        | _ =>
          simp only [Act.ends_bind, Act.ends_lift, Effect.ends_log, Act.ends_ofTask]
          exact (refreshes_finishWalk filed₁).mono fun _ _ _ =>
            IsQuiet.trans_refreshes ⟨fun _ => rfl, (Journal.calls_logged ..).trans calls⟩

theorem refreshes_pollSensor {now : Nat} {e : Eid × NumericSensor} (filed : m.Filed)
    (lists : m.toWatch.Lists e) :
    Act.Ends (Watch.pollSensor .reading now e.1 e.2) m.toWatch link journal fun _ w' journal' =>
      Refreshes ⟨m, journal⟩ ⟨{ m with toWatch := w' }, journal'⟩ := by
  obtain ⟨eid, s⟩ := e
  obtain ⟨terminus, known, listed, rfl, reachable⟩ := lists
  have registered : m.sensor? s.key = some s :=
    Option.bind_eq_some_iff.mpr ⟨terminus, known, listed⟩
  simp only [Watch.pollSensor, Act.ends_bind, Act.ends_get]
  split
  next due =>
    cases ReadSensor.request s.key.sensor false with
    | error fault =>
      simp only [Act.ends_bind, Act.ends_lift, Effect.ends_log]
      refine (ends_quiet (Effect.adds_remark (fun _ => rfl) _)).mono fun _ _ calls => ?_
      exact IsQuiet.refreshes ⟨fun _ => rfl, (Journal.calls_logged ..).trans calls⟩ filed
    | ok request =>
      simp only [Act.ends_bind, Act.ends_outcome, Watch.onRequests, Act.ends_on]
      refine ends_register_quiet.mono fun result c journal₁ calls => ?_
      have filed₁ : (m.withRequests c).Filed := filed.congr rfl rfl
      cases result with
      | ok iid => exact IsQuiet.refreshes ⟨fun _ => rfl, calls⟩ (filed.congr rfl rfl)
      | error fault =>
        cases fault with
        | transport fault =>
          exact refreshes_setSensor (m := m.withRequests c)
            ⟨fun _ => rfl, (Journal.calls_logged ..).trans calls⟩ filed₁ registered
            (filed.termini registered).fail
        | state => exact IsQuiet.refreshes ⟨fun _ => rfl, calls⟩ filed₁
        | _ =>
          exact IsQuiet.refreshes ⟨fun _ => rfl, (Journal.calls_logged ..).trans calls⟩ filed₁
  next => exact IsQuiet.refreshes ⟨fun _ => rfl, rfl⟩ filed

/-! ### Termini -/

/-- What is done about the pools of a terminus that was removed is nothing to see. -/
private theorem ends_dropUnused_quiet {eid : Eid} {notice : Notice} :
    Act.Ends (do
        if (← get).pendingFor eid = 0 then onIds (.ofTask (Pools.drop eid))
        Effect.log notice) m link journal fun result m' journal' =>
      result = .ok () ∧ m'.termini = m.termini ∧ m'.walks = m.walks ∧
        journal'.calls = journal.calls := by
  simp only [Act.ends_bind, Act.ends_get, onIds, onRequests, onWatch, Watch.onRequests,
    Correlator.onIds]
  split
  next =>
    simp only [Act.ends_bind, Act.ends_on, Act.ends_ofTask, Act.ends_lift, Effect.ends_log]
    have adds : (Pools.drop eid).Adds fun event => event.draws = false :=
      Pools.adds_drop (fun _ => rfl) (fun _ => rfl) eid
    refine (adds _ link journal).mono fun _ _ _ grows => ⟨trivial, trivial, trivial, ?_⟩
    exact (Journal.calls_logged ..).trans grows.calls
  next => exact ⟨rfl, rfl, rfl, Journal.calls_logged ..⟩

theorem ends_remove_calls {terminus : Terminus} (known : m.termini.get? tid = some terminus) :
    Act.Ends (remove tid) m link journal fun result m' journal' =>
      result = .ok () ∧ m'.termini = m.termini.erase tid ∧ m'.walks = m.walks.erase tid ∧
        journal'.calls =
          journal.calls ++ (terminus.sensors.values.map (·.path)).map .removed := by
  simp only [remove, Act.ends_bind, Act.ends_get, known, Act.ends_modify, Act.ends_lift,
    Effect.ends_removeAll, Effect.journal_removeAll, onInventory, Act.ends_on, Act.ends_ofTask]
  have adds : (Inventory.eraseIf (·.eid == terminus.eid) : Task (Inventory μ) Nat).Adds
      fun event => event.draws = false := Inventory.adds_eraseIf (fun _ => rfl) _
  refine (adds _ link _).mono ?_
  intro erased inventory journal₁ grows
  have removed : journal₁.calls =
      journal.calls ++ (terminus.sensors.values.map (·.path)).map .removed := by
    rw [grows.calls, Journal.calls_append, Journal.calls_removed]
  split
  next =>
    rw [Act.ends_bind]
    simp only [Act.ends_lift, Effect.ends_log]
    refine ends_dropUnused_quiet.mono ?_
    rintro _ m' _ ⟨result, termini, walks, calls⟩
    exact ⟨result, termini, walks, calls.trans ((Journal.calls_logged ..).trans removed)⟩
  next =>
    refine ends_dropUnused_quiet.mono ?_
    rintro _ m' _ ⟨result, termini, walks, calls⟩
    exact ⟨result, termini, walks, calls.trans removed⟩

theorem refreshes_remove (filed : m.Filed) :
    Act.Ends (remove tid) m link journal fun _ m' journal' =>
      Refreshes ⟨m, journal⟩ ⟨m', journal'⟩ := by
  cases known : m.termini.get? tid with
  | none =>
    simp only [remove, Act.ends_bind, Act.ends_get, known]
    exact IsQuiet.refreshes ⟨fun _ => rfl, rfl⟩ filed
  | some terminus =>
    refine (ends_remove_calls known).mono ?_
    rintro _ m' journal' ⟨_, termini, walks, calls⟩
    have after (key : SensorKey) := @sensor?_erase μ m m' key tid termini
    exact refreshes_removed filed known after walks calls

theorem refreshes_add {eid : Eid} {name : String} (filed : m.Filed) :
    Act.Ends (add tid eid name) m link journal fun _ m' journal' =>
      Refreshes ⟨m, journal⟩ ⟨m', journal'⟩ := by
  simp only [add, Act.ends_bind, Act.ends_get]
  cases known : m.termini.get? tid with
  | none =>
    simp only [addNew, Act.ends_bind, Act.ends_lift, Effect.ends_log, Act.ends_modify]
    refine IsQuiet.refreshes ⟨fun _ => sensor?_place known, Journal.calls_logged ..⟩ ?_
    exact ⟨fun registered => filed.termini (sensor?_place known ▸ registered), filed.walks⟩
  | some terminus =>
    dsimp only
    split
    next =>
      have same (key : SensorKey) :
          (m.modifyTerminus tid fun t => { t with reachable := true }).sensor? key =
            m.sensor? key := by
        rw [sensor?_modifyTerminus]
        split
        next own => rw [← own]; rfl
        next => rfl
      have filed' : (m.modifyTerminus tid fun t => { t with reachable := true }).Filed :=
        ⟨fun registered => filed.termini (same _ ▸ registered), filed.walks⟩
      split
      next => exact IsQuiet.refreshes ⟨same, rfl⟩ filed'
      next => exact IsQuiet.refreshes ⟨same, Journal.calls_logged ..⟩ filed'
    next =>
      simp only [Act.ends_bind, Act.ends_lift, Effect.ends_log]
      refine (ends_remove_calls known).mono ?_
      rintro result m₁ journal₁ ⟨ok, termini, walks, calls⟩
      subst ok
      have unknown : m₁.termini.get? tid = none := by rw [termini, Table.get?_erase_self]
      simp only [addNew, Act.ends_bind, Act.ends_lift, Effect.ends_log, Act.ends_modify]
      have after (key : SensorKey) :
          Watch.sensor?
              { m₁.toWatch with termini := m₁.termini.insert tid { tid, eid, name } } key =
            if key.tid = tid then none else m.sensor? key :=
        (sensor?_place unknown).trans (sensor?_erase termini)
      exact refreshes_removed filed known after walks
        ((Journal.calls_logged ..).trans (by rw [calls, Journal.calls_logged]))

theorem refreshes_markUnreachable (filed : m.Filed) :
    Act.Ends (markUnreachable tid) m link journal fun _ m' journal' =>
      Refreshes ⟨m, journal⟩ ⟨m', journal'⟩ := by
  simp only [markUnreachable, Act.ends_bind, Act.ends_get]
  cases known : m.termini.get? tid with
  | none => exact IsQuiet.refreshes ⟨fun _ => rfl, rfl⟩ filed
  | some terminus =>
    have publishes (journal : Journal) : Act.Ends (do
        modify fun m => { m with termini := m.termini.modify tid fun t => { t with
          sensors := terminus.sensors.mapValues fun _ s => s.lose, reachable := false } }
        NumericSensor.publishAll (terminus.sensors.mapValues fun _ s => s.lose).values)
        m link journal fun _ m' journal' => Refreshes ⟨m, journal⟩ ⟨m', journal'⟩ := by
      simp only [Act.ends_bind, Act.ends_modify, Act.ends_lift, NumericSensor.ends_publishAll,
        NumericSensor.journal_publishAll]
      exact refreshes_lost filed known
        ((Journal.calls_append ..).trans (congrArg _ (Journal.calls_published _)))
    dsimp only
    split
    next =>
      rw [Act.ends_bind]
      simp only [Act.ends_lift, Effect.ends_log]
      refine (publishes _).mono fun _ _ _ => ?_
      exact IsQuiet.trans_refreshes ⟨fun _ => rfl, Journal.calls_logged ..⟩
    next => exact publishes journal

/-! ### Requests of others -/

theorem refreshes_onRequest [UpdateManager μ] {eid : Eid} {bytes : List UInt8} (filed : m.Filed) :
    Act.Ends (onRequest eid bytes) m link journal fun _ m' journal' =>
      Refreshes ⟨m, journal⟩ ⟨m', journal'⟩ := by
  unfold onRequest
  split
  next => exact IsQuiet.refreshes ⟨fun _ => rfl, Journal.calls_logged ..⟩ filed
  next request _ =>
    have adds : (Inventory.dispatch eid request : Task (Inventory μ) _).Adds
        fun event => event.draws = false :=
      Inventory.adds_dispatch (fun _ => rfl) (fun _ => rfl) eid request
    simp only [Act.ends_bind, onInventory, Act.ends_on, Act.ends_ofTask]
    refine (adds _ link journal).mono ?_
    intro response inventory journal₁ grows
    have filed₁ : ({ m with inventory } : Monitor μ).Filed := filed.congr rfl rfl
    cases response.toBytes with
    | error fault =>
      simp only [Act.ofMessage, Act.ends_bind, Act.ends_lift]
      refine (ends_quiet (Effect.adds_remark (fun _ => rfl) fault)).mono fun _ _ calls => ?_
      exact IsQuiet.refreshes ⟨fun _ => rfl, calls.trans grows.calls⟩ filed₁
    | ok bytes =>
      simp only [Act.ofMessage, Act.ends_pure, Act.ends_lift, Effect.ends_send]
      have sent (fault? : Option TransportFault) :
          Journal.calls (journal₁ ++ [.sent eid bytes fault?]) = journal.calls :=
        (Journal.calls_append ..).trans ((List.append_nil _).trans grows.calls)
      split
      next =>
        exact IsQuiet.refreshes ⟨fun _ => rfl, (Journal.calls_logged ..).trans (sent _)⟩ filed₁
      next => exact IsQuiet.refreshes ⟨fun _ => rfl, sent _⟩ filed₁

theorem refreshes_setProperty {path property : String} {value : PropertyValue} (filed : m.Filed) :
    Act.Ends (setProperty path property value) m link journal fun _ m' journal' =>
      Refreshes ⟨m, journal⟩ ⟨m', journal'⟩ := by
  simp only [setProperty, Act.ends_bind, Act.ends_get]
  split
  next mapping _ =>
    split
    next => exact IsQuiet.refreshes ⟨fun _ => rfl, rfl⟩ filed
    next written _ =>
      cases written with
      | error fault =>
        simp only [Act.ofMessage, Act.ends_bind, Act.ends_lift]
        refine (ends_quiet (Effect.adds_remark (fun _ => rfl) fault)).mono fun _ _ calls => ?_
        exact IsQuiet.refreshes ⟨fun _ => rfl, calls⟩ filed
      | ok request =>
        simp only [Act.ofMessage, Act.ends_bind, Act.ends_pure, Act.ends_discard, onRequests,
          onWatch, Watch.onRequests, Act.ends_on]
        refine ends_register_quiet.mono fun _ _ _ calls => ?_
        exact IsQuiet.refreshes ⟨fun _ => rfl, calls⟩ (filed.congr rfl rfl)
  next => exact IsQuiet.refreshes ⟨fun _ => rfl, rfl⟩ filed

end Monitor

end TerminusMonitor
