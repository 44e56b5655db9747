import TerminusMonitor.Proofs.Move

/-!
A turn of a monitor is a sequence of moves.

Each function that a monitor is driven by has a lemma here that tells the moves of its
run: `Monitor.ends_takeIn` for outcomes, `Monitor.ends_askEach` for walks and
`Monitor.ends_poll` for readings. `Turn.moves` puts them together.
-/

namespace TerminusMonitor

variable {μ : Type} {link : Link} {journal : Journal} {m : Monitor μ}

/-! ### Requests -/

theorem InstanceId.toByte_le (iid : InstanceId) : iid.toByte ≤ maxInstanceId := by
  revert iid
  decide

/-- A platform request can be written with each instance ID. -/
theorem Request.written_ofPayload (command : UInt8) (payload : List UInt8) (iid : InstanceId) :
    ∃ message, { ofPayload platformType command payload with
      instanceId := iid.toByte }.toBytes = .ok message := by
  simp only [toBytes, header, Header.toBytes, Header.fits, ofPayload, InstanceId.toByte_le]
  exact ⟨_, rfl⟩

/-- Each record can be asked for. -/
theorem FetchRecord.request_eq (record : UInt32) :
    ∃ payload, request record = .ok (.ofPayload platformType (Coded.code Command.getPDR) payload) :=
  ⟨_, rfl⟩

/-- So can the reading of each sensor. -/
theorem ReadSensor.request_eq (sensor : SensorId) (rearm : Bool) :
    ∃ payload, request sensor rearm =
      .ok (.ofPayload platformType (Coded.code Command.getSensorReading) payload) :=
  ⟨_, rfl⟩

/-! ### Outcomes -/

/-- Requests that expire are shed one by one. -/
theorem Moves.of_sheds {c c' : Correlator Purpose} {completions hand : List (Completion Purpose)}
    (sheds : c.Sheds completions c') (own : c = m.toCorrelator)
    (late : ∀ completion ∈ completions, completion.result = .error .timedOut) :
    Moves ⟨m, hand⟩ [] ⟨m.withRequests c', hand ++ completions⟩ := by
  induction sheds generalizing m hand with
  | done => subst own; simpa [Monitor.withRequests] using Moves.done
  | renewed _ ih => subst own; exact .step .renewed (ih rfl late)
  | @closed _ _ _ completion _ pending cookie _ ih =>
    subst own
    obtain ⟨lateFirst, lateRest⟩ := List.forall_mem_cons.mp late
    have rest : Moves ⟨m.withRequests (m.closed completion.key), hand ++ [completion]⟩ [] _ :=
      ih rfl lateRest
    rw [List.append_assoc] at rest
    exact .step (.shed pending cookie (.inr lateFirst)) rest

/-- The outcomes in hand are taken in one by one. -/
theorem Moves.settle {completions hand : List (Completion Purpose)} :
    Moves ⟨m, completions ++ hand⟩ (completions.map .settled)
      ⟨completions.foldl Monitor.settled m, hand⟩ := by
  induction completions generalizing m with
  | nil => exact .done
  | cons completion rest ih => exact .step .settled ih

namespace Monitor

theorem ends_completeAll {completions : List (Completion Purpose)} :
    Task.Ends (completeAll completions) m link journal fun _ m' _ =>
      m' = completions.foldl settled m := by
  induction completions generalizing m journal with
  | nil => rfl
  | cons completion rest ih =>
    simp only [completeAll, Task.ends_bind]
    refine ends_complete.mono ?_
    intro _ m' _ ended
    subst ended
    exact ih

theorem ends_takeIn {eid : Eid} {bytes : List UInt8} :
    Act.Ends (takeIn eid bytes) m link journal fun result m' _ =>
      (result = .ok none ∧ m' = m) ∨
      ∃ completion, result = .ok (some [completion]) ∧
        Moves ⟨m, []⟩ [.settled completion] ⟨m', []⟩ := by
  simp only [takeIn, onRequests, onWatch, Watch.onRequests, Act.ends_bind, Act.ends_on,
    Act.ends_ofTask]
  refine Correlator.ends_receive.mono ?_
  intro completion? c _ reception
  cases completion? with
  | none =>
    cases reception
    exact .inl ⟨rfl, rfl⟩
  | some completion =>
    obtain ⟨p, pending, cookie, rfl⟩ := reception.pending
    simp only [Act.ends_bind, Act.ends_ofTask, Act.ends_pure]
    refine ends_complete.mono fun _ m' _ ended => .inr ⟨completion, rfl, ended ▸ ?_⟩
    exact .step (.shed pending cookie (.inl rfl)) (.single .settled)

/-! ### Walks -/

/-- To ask for the next record of a walk is one move at most. -/
theorem ends_askNext_move (m : Monitor μ) (link : Link) (journal : Journal) {tid : Tid}
    (waiting : ∀ {walk}, m.walks.get? tid = some walk → walk.inFlight = false) :
    Act.Ends (askNext tid) m link journal fun _ m' _ =>
      (m.asking link journal tid = [] ∧ m' = m ∨
        Move ⟨m, []⟩ (m.asking link journal tid) ⟨m', []⟩) ∧
        ∀ {tid'}, tid' ≠ tid → m'.walks.get? tid' = m.walks.get? tid' := by
  simp only [askNext, Act.ends_bind, Act.ends_get, asking]
  cases known : m.termini.get? tid with
  | none =>
    simp only [Act.ends_modify]
    exact ⟨.inr (.strayed known), fun ne => Table.get?_erase_of_ne ne⟩
  | some terminus =>
    simp only [Act.ends_bind, Act.ends_get]
    cases found : m.walks.get? tid with
    | none => exact ⟨.inl ⟨rfl, rfl⟩, fun _ => rfl⟩
    | some walk =>
      obtain ⟨payload, written⟩ := FetchRecord.request_eq walk.next
      simp only [written, Act.ends_bind, Act.ofMessage, Act.ends_pure, Act.ends_outcome, onRequests,
        onWatch, Watch.onRequests, Act.ends_on]
      have registration := Correlator.registration m.toCorrelator link journal terminus.eid
        (.ofPayload platformType (Coded.code Command.getPDR) payload) (.record tid walk.next)
      rw [Act.ends_iff]
      generalize Act.result _ m.toCorrelator link journal = result,
        Act.state _ m.toCorrelator link journal = c at registration ⊢
      cases registration with
      | sent free fresh =>
        exact ⟨.inr (.asked known found (waiting found) free fresh),
          fun ne => Table.get?_modify_of_ne _ ne⟩
      | exhausted => exact ⟨.inl ⟨rfl, rfl⟩, fun _ => rfl⟩
      | duplicate free => exact ⟨.inr (.refused free), fun _ => rfl⟩
      | unwritten _ unwritten =>
        obtain ⟨message, fine⟩ := Request.written_ofPayload _ _ _
        rw [fine] at unwritten
        cases unwritten
      | unsent free =>
        simp only [Act.ends_bind, Act.ends_lift, Effect.ends_log, Act.ends_ofTask]
        refine ends_finishWalk.mono ?_
        intro _ m' _ ended
        subst ended
        refine ⟨.inr (.unsent known found (waiting found) free), ?_⟩
        intro tid' ne
        rw [walks_finished, if_neg ne]

theorem ends_askNext (m : Monitor μ) (link : Link) (journal : Journal) {tid : Tid}
    (waiting : ∀ {walk}, m.walks.get? tid = some walk → walk.inFlight = false) :
    Act.Ends (askNext tid) m link journal fun _ m' _ =>
      Moves ⟨m, []⟩ (m.asking link journal tid) ⟨m', []⟩ ∧
        ∀ {tid'}, tid' ≠ tid → m'.walks.get? tid' = m.walks.get? tid' := by
  refine (ends_askNext_move m link journal waiting).mono ?_
  rintro _ m' _ ⟨⟨none, rfl⟩ | move, others⟩
  · rw [none]
    exact ⟨.done, others⟩
  · exact ⟨.single move, others⟩

/-- Walks that wait go on one by one. Each is asked for once, so that it still waits
when its turn comes. -/
theorem ends_askEach {tids : List Tid} (once : tids.Nodup)
    (waiting : ∀ {tid walk}, tid ∈ tids → m.walks.get? tid = some walk → walk.inFlight = false) :
    Act.Ends (askEach tids) m link journal fun _ m' _ =>
      Moves ⟨m, []⟩ (m.asks link journal tids) ⟨m', []⟩ := by
  induction tids generalizing m journal with
  | nil => exact .done
  | cons tid rest ih =>
    obtain ⟨notLater, onceLater⟩ := List.nodup_cons.mp once
    have first := Act.ends_iff.mp
      (ends_askNext m link journal fun found => waiting List.mem_cons_self found)
    simp only [askEach, asks, Act.ends_bind]
    rw [Act.ends_iff]
    generalize (askNext tid).result m link journal = result,
      (askNext tid).state m link journal = m₁, (askNext tid).journal m link journal = journal₁
      at first ⊢
    obtain ⟨moves, others⟩ := first
    cases result with
    | error fault => simpa using moves
    | ok =>
      refine (ih onceLater fun {tid' walk} mem found => ?_).mono
        fun _ _ _ later => moves.trans later
      refine waiting (List.mem_cons_of_mem _ mem) (others ?_ ▸ found)
      rintro rfl
      exact notLater mem

theorem ends_advance :
    Act.Ends advance m link journal fun _ m' _ =>
      Moves ⟨m, []⟩ (m.asks link journal m.waitingWalks) ⟨m', []⟩ := by
  simp only [advance, Act.ends_bind, Act.ends_get]
  refine ends_askEach (Table.nodup_keys _) ?_
  intro tid walk mem found
  obtain ⟨walk', found'⟩ := Table.mem_keys_iff.mp mem
  obtain ⟨found', waiting⟩ := Table.get?_filter_some found'
  rw [found] at found'
  cases found'
  simpa using waiting

end Monitor

/-! ### Readings -/

theorem SensorKey.eq_iff {k k' : SensorKey} : k = k' ↔ k.tid = k'.tid ∧ k.sensor = k'.sensor := by
  cases k; cases k'
  simp

/-- The sensors of a terminus come before those of a later one. -/
theorem SensorKey.rank_lt {k k' : SensorKey} (lt : rank k.tid < rank k'.tid) :
    rank k < rank k' := by
  have tid : k.tid.toNat < k'.tid.toNat := lt
  have sensor := UInt16.toNat_lt k.sensor
  change k.tid.toNat * 0x10000 + k.sensor.toNat < k'.tid.toNat * 0x10000 + k'.sensor.toNat
  omega

/-- A sensor of a reachable terminus, with the endpoint of the terminus. -/
def Watch.Lists {κ : Type} (w : Watch κ) (e : Eid × NumericSensor) : Prop :=
  ∃ terminus, w.termini.get? e.2.key.tid = some terminus ∧
    terminus.sensors.get? e.2.key.sensor = some e.2 ∧
    terminus.eid = e.1 ∧ terminus.reachable = true

/-- Another state of one sensor leaves the others as they are. -/
theorem Watch.Lists.setSensor {κ : Type} {w : Watch κ} {e : Eid × NumericSensor}
    {key : SensorKey} {s : NumericSensor} (lists : w.Lists e) (ne : e.2.key ≠ key) :
    (w.setSensor key s).Lists e := by
  obtain ⟨terminus, known, listed, home, reachable⟩ := lists
  by_cases same : e.2.key.tid = key.tid
  · refine ⟨{ terminus with sensors := terminus.sensors.modify key.sensor fun _ => s }, ?_, ?_,
      home, reachable⟩
    · simp only [Watch.setSensor, Table.get?_modify, ← same, known, Option.map_some, if_true]
    · rwa [Table.get?_modify_of_ne]
      exact fun sensor => ne (SensorKey.eq_iff.mpr ⟨same, sensor⟩)
  · refine ⟨terminus, ?_, listed, home, reachable⟩
    simpa only [Watch.setSensor, Table.get?_modify, same, if_false] using known

namespace Monitor

/-- The sensors of a terminus that are to be polled, with its endpoint. -/
theorem Keyed.lists_of_mem (keyed : m.Keyed) {tid : Tid} {terminus : Terminus}
    (known : m.termini.get? tid = some terminus) {e : Eid × NumericSensor}
    (mem : e ∈ if terminus.reachable then terminus.sensors.values.map fun s => (terminus.eid, s)
      else []) :
    m.toWatch.Lists e ∧ e.2.key.tid = tid := by
  split at mem
  next reachable =>
    obtain ⟨s, value, rfl⟩ := List.mem_map.mp mem
    obtain ⟨sensor, listed⟩ := Table.mem_values_iff.mp value
    have own := keyed.termini known listed
    refine ⟨⟨terminus, ?_, ?_, rfl, reachable⟩, ?_⟩ <;> dsimp only <;> rw [own]
    · exact known
    · exact listed
  next => cases mem

/-- The sensors to be polled are those of the reachable termini, -/
theorem Keyed.lists (keyed : m.Keyed) {e : Eid × NumericSensor} (mem : e ∈ m.polled) :
    m.toWatch.Lists e := by
  obtain ⟨terminus, value, mem⟩ := List.mem_flatMap.mp mem
  obtain ⟨tid, known⟩ := Table.mem_values_iff.mp value
  exact (keyed.lists_of_mem known mem).1

/-- in the order of their keys, -/
theorem Keyed.polled_sorted (keyed : m.Keyed) :
    m.polled.Pairwise fun e e' => rank e.2.key < rank e'.2.key := by
  refine List.pairwise_flatMap.mpr ⟨?_, ?_⟩
  · intro terminus value
    obtain ⟨tid, known⟩ := Table.mem_values_iff.mp value
    split
    next =>
      refine List.pairwise_map.mpr (List.pairwise_map.mpr ?_)
      refine terminus.sensors.sorted.imp_of_mem ?_
      intro a b memA memB lt
      rw [keyed.termini known (Table.mem_entries_iff.mp memA),
        keyed.termini known (Table.mem_entries_iff.mp memB)]
      exact Nat.add_lt_add_left lt _
    next => exact .nil
  · refine List.pairwise_map.mpr (m.termini.sorted.imp_of_mem ?_)
    intro a b memA memB lt e memE e' memE'
    have tid := (keyed.lists_of_mem (Table.mem_entries_iff.mp memA) memE).2
    have tid' := (keyed.lists_of_mem (Table.mem_entries_iff.mp memB) memE').2
    exact SensorKey.rank_lt (by rwa [tid, tid'])

/-- each of them once. -/
theorem Keyed.polled_once (keyed : m.Keyed) :
    m.polled.Pairwise fun e e' => e'.2.key ≠ e.2.key := by
  refine keyed.polled_sorted.imp ?_
  intro e e' lt eq
  rw [eq] at lt
  exact Nat.lt_irrefl _ lt

theorem ends_pollSensor (link : Link) (journal : Journal) (now : Nat) {e : Eid × NumericSensor}
    (lists : m.toWatch.Lists e) :
    Act.Ends (Watch.pollSensor .reading now e.1 e.2) m.toWatch link journal fun _ w' _ =>
      Moves ⟨m, []⟩ (m.polling link journal now e.1 e.2) ⟨{ m with toWatch := w' }, []⟩ ∧
        ∀ {e' : Eid × NumericSensor}, e'.2.key ≠ e.2.key → m.toWatch.Lists e' → w'.Lists e' := by
  obtain ⟨eid, s⟩ := e
  obtain ⟨terminus, known, listed, rfl, reachable⟩ := lists
  simp only [Watch.pollSensor, Act.ends_bind, Act.ends_get, Watch.polling]
  split
  next due =>
    cases ReadSensor.request s.key.sensor false with
    | error fault => exact ⟨.done, fun _ lists => lists⟩
    | ok request =>
      simp only [Act.ends_bind, Act.ends_outcome, Watch.onRequests, Act.ends_on]
      have registration := Correlator.registration m.toCorrelator link journal terminus.eid request
        (.reading s.key)
      rw [Act.ends_iff]
      generalize Act.result _ m.toCorrelator link journal = result,
        Act.state _ m.toCorrelator link journal = c at registration ⊢
      cases registration with
      | sent free fresh =>
        exact ⟨.single (.polled known listed reachable due free fresh), fun _ lists => lists⟩
      | exhausted => exact ⟨.done, fun _ lists => lists⟩
      | duplicate free => exact ⟨.single (.refused free), fun _ lists => lists⟩
      | unwritten free => exact ⟨.single (.refused free), fun _ lists => lists⟩
      | unsent free =>
        exact ⟨.single (.failed known listed free), fun ne lists =>
          Watch.Lists.setSensor (w := (m.withRequests _).toWatch) lists ne⟩
  next => exact ⟨.done, fun _ lists => lists⟩

theorem ends_pollSensors {now : Nat} {sensors : List (Eid × NumericSensor)}
    (lists : ∀ {e}, e ∈ sensors → m.toWatch.Lists e)
    (once : sensors.Pairwise fun e e' => e'.2.key ≠ e.2.key) :
    Act.Ends (Watch.pollSensors .reading now sensors) m.toWatch link journal fun _ w' _ =>
      Moves ⟨m, []⟩ (m.polls link journal now sensors) ⟨{ m with toWatch := w' }, []⟩ := by
  induction sensors generalizing m journal with
  | nil => exact .done
  | cons e rest ih =>
    obtain ⟨others, onceLater⟩ := List.pairwise_cons.mp once
    have first := Act.ends_iff.mp (ends_pollSensor link journal now (lists List.mem_cons_self))
    simp only [Watch.pollSensors, Watch.polls, Act.ends_bind]
    rw [Act.ends_iff]
    generalize Act.result _ m.toWatch link journal = result,
      Act.state _ m.toWatch link journal = w, Act.journal _ m.toWatch link journal = journal₁
      at first ⊢
    obtain ⟨moves, kept⟩ := first
    cases result with
    | error fault => simpa using moves
    | ok =>
      refine (ih (m := { m with toWatch := w }) (fun {e'} mem => ?_) onceLater).mono
        fun _ _ _ later => moves.trans later
      exact kept (others e' mem) (lists (List.mem_cons_of_mem _ mem))

/-- A tick asks the sensors to be polled in turn. -/
theorem Keyed.ends_poll (keyed : m.Keyed) {now : Nat} :
    Act.Ends (Watch.poll .reading now) m.toWatch link journal fun _ w' _ =>
      Moves ⟨m, []⟩ (m.ticking link journal now) ⟨{ m with toWatch := w' }, []⟩ := by
  simp only [Watch.poll, Watch.ticking, Act.ends_bind, Act.ends_get]
  split
  next =>
    simp only [Act.ends_bind, Act.ends_modify, Act.ends_get]
    let m₁ : Monitor μ :=
      { m with poller := { m.poller with nextTick := timeAfter now m.poller.interval } }
    have tick : Move ⟨m, []⟩ [] ⟨m₁, []⟩ := .aside ⟨rfl, rfl, rfl, rfl, rfl, rfl, rfl⟩
    have keyed₁ : m₁.Keyed := ⟨keyed.termini, keyed.walks⟩
    refine (ends_pollSensors (m := m₁) keyed₁.lists keyed₁.polled_once).mono
      fun result w _ moves => ?_
    cases result with
    | error fault => exact .step tick moves
    | ok => exact .step tick moves
  next => exact .done

/-! ### Operations -/

theorem ends_dropUnused {eid : Eid} {notice : Notice} :
    Act.Ends (do
        if (← get).pendingFor eid = 0 then onIds (.ofTask (Pools.drop eid))
        Effect.log notice) m link journal fun result m' _ =>
      result = .ok () ∧ m'.termini = m.termini ∧ Moves ⟨m, []⟩ [] ⟨m', []⟩ := by
  simp only [Act.ends_bind, Act.ends_get, onIds, onRequests, onWatch, Watch.onRequests,
    Correlator.onIds]
  split
  next unused =>
    simp only [Act.ends_bind, Act.ends_on, Act.ends_ofTask, Act.ends_lift, Effect.ends_log]
    refine Pools.ends_drop.mono ?_
    intro _ ids _ ended
    subst ended
    exact ⟨trivial, trivial, .single (.dropped unused)⟩
  next => exact ⟨rfl, rfl, .done⟩

theorem ends_remove {tid : Tid} {terminus : Terminus} (known : m.termini.get? tid = some terminus) :
    Act.Ends (remove tid) m link journal fun result m' _ =>
      result = .ok () ∧ m'.termini = m.termini.erase tid ∧
        Moves ⟨m, []⟩ [.removed tid] ⟨m', []⟩ := by
  simp only [remove, Act.ends_bind, Act.ends_get, known, Act.ends_modify, Act.ends_lift,
    Effect.ends_removeAll, onInventory, Act.ends_on, Act.ends_ofTask]
  refine Task.ends_of_forall ?_
  intro erased inventory journal
  have removed : Move ⟨m, []⟩ [.removed tid] ⟨_, []⟩ :=
    @Move.removed μ m [] tid terminus inventory known
  split
  next =>
    rw [Act.ends_bind]
    simp only [Act.ends_lift, Effect.ends_log]
    refine ends_dropUnused.mono ?_
    rintro _ m' _ ⟨result, termini, moves⟩
    exact ⟨result, termini, .step removed moves⟩
  next =>
    refine ends_dropUnused.mono ?_
    rintro _ m' _ ⟨result, termini, moves⟩
    exact ⟨result, termini, .step removed moves⟩

theorem ends_addNew {tid : Tid} {eid : Eid} {name : String}
    (unknown : m.termini.get? tid = none) :
    Act.Ends (addNew tid eid name) m link journal fun _ m' _ =>
      Moves ⟨m, []⟩ [.placed tid eid] ⟨m', []⟩ := by
  simp only [addNew, Act.ends_bind, Act.ends_lift, Effect.ends_log, Act.ends_modify]
  exact .single (.placed unknown)

theorem ends_add {tid : Tid} {eid : Eid} {name : String} :
    Act.Ends (add tid eid name) m link journal fun _ m' _ =>
      Moves ⟨m, []⟩ (Operation.arranged m (.add tid eid name)) ⟨m', []⟩ := by
  simp only [add, Act.ends_bind, Act.ends_get, Operation.arranged]
  cases known : m.termini.get? tid with
  | none => exact ends_addNew known
  | some terminus =>
    dsimp only
    split
    next =>
      split
      next => exact .single .reached
      next => exact .single .reached
    next =>
      simp only [Act.ends_bind, Act.ends_lift, Effect.ends_log]
      refine (ends_remove known).mono ?_
      rintro result m₁ _ ⟨ok, termini, moves⟩
      subst ok
      have unknown : m₁.termini.get? tid = none := by rw [termini, Table.get?_erase_self]
      refine (ends_addNew unknown).mono ?_
      intro _ _ _ later
      exact moves.trans later

theorem ends_markUnreachable {tid : Tid} :
    Act.Ends (markUnreachable tid) m link journal fun _ m' _ =>
      Moves ⟨m, []⟩ (Operation.arranged m (.markUnreachable tid)) ⟨m', []⟩ := by
  simp only [markUnreachable, Act.ends_bind, Act.ends_get, Operation.arranged]
  cases known : m.termini.get? tid with
  | none =>
    rw [Table.contains_eq_false_iff.mpr known]
    exact .done
  | some terminus =>
    rw [if_pos (Table.contains_iff.mpr ⟨_, known⟩)]
    have lost := @Move.lost μ m [] tid
    have same : m.termini.modify tid (fun t =>
          { t with sensors := t.sensors.mapValues fun _ s => s.lose, reachable := false }) =
        m.termini.modify tid fun t =>
          { t with sensors := terminus.sensors.mapValues fun _ s => s.lose, reachable := false } :=
      Table.modify_congr fun t found => by rw [known] at found; cases found; rfl
    rw [modifyTerminus, same] at lost
    dsimp only
    split <;> simpa using Moves.single lost

theorem ends_setProperty {path property : String} {value : PropertyValue} :
    Act.Ends (setProperty path property value) m link journal fun _ m' _ =>
      Moves ⟨m, []⟩ [] ⟨m', []⟩ := by
  simp only [setProperty, Act.ends_bind, Act.ends_get]
  split
  next mapping _ =>
    split
    next => exact .done
    next written _ =>
      cases written with
      | error fault => exact .done
      | ok request =>
        simp only [Act.ofMessage, Act.ends_bind, Act.ends_pure, Act.ends_discard, onRequests,
          onWatch, Watch.onRequests, Act.ends_on]
        refine Correlator.ends_register.mono ?_
        intro result c _ registration
        cases registration with
        | sent free fresh => exact .single (.set free fresh)
        | exhausted => exact .done
        | duplicate free => exact .single (.refused free)
        | unwritten free => exact .single (.refused free)
        | unsent free => exact .single (.refused free)
  next => exact .done

theorem ends_onRequest [UpdateManager μ] {eid : Eid} {bytes : List UInt8} :
    Act.Ends (onRequest eid bytes) m link journal fun _ m' _ =>
      Moves ⟨m, []⟩ [] ⟨m', []⟩ := by
  unfold onRequest
  split
  next => exact .done
  next request _ =>
    simp only [Act.ends_bind, onInventory, Act.ends_on, Act.ends_ofTask]
    refine Task.ends_of_forall ?_
    intro response inventory journal
    have answered : Move ⟨m, []⟩ [] ⟨{ m with inventory }, []⟩ :=
      .aside ⟨rfl, rfl, rfl, rfl, rfl, rfl, rfl⟩
    cases response.toBytes with
    | error fault => exact .single answered
    | ok bytes =>
      simp only [Act.ofMessage, Act.ends_pure, Act.ends_lift, Effect.ends_send]
      split <;> exact .single answered

/-- Walks go on when the outcomes that an operation opens with are taken in. -/
theorem ends_goOn {opening : Act (Monitor μ) (Option (List (Completion Purpose)))}
    (opens : Act.Ends opening m link journal fun result m' _ =>
      match result with
      | .ok (some completions) => Moves ⟨m, []⟩ (completions.map .settled) ⟨m', []⟩
      | _ => m' = m) :
    Act.Ends (goOn opening) m link journal fun _ m' _ =>
      Moves ⟨m, []⟩ (m.driven link journal opening) ⟨m', []⟩ := by
  rw [Act.ends_iff] at opens
  rw [goOn, Act.ends_bind, Act.ends_iff, driven]
  generalize opening.result m link journal = result, opening.state m link journal = m₁,
    opening.journal m link journal = journal₁ at opens ⊢
  match result with
  | .error _ => exact opens ▸ .done
  | .ok none => exact opens ▸ .done
  | .ok (some completions) => exact ends_advance.mono fun _ _ _ asks => opens.trans asks

/-- Walks go on after a response that completes a request. -/
theorem onResponse_eq (eid : Eid) (bytes : List UInt8) :
    (onResponse eid bytes : Act (Monitor μ) Unit) = goOn (takeIn eid bytes) := by
  unfold onResponse goOn takeIn
  simp only [bind_assoc]
  congr 1
  funext completion?
  cases completion? <;> simp

theorem ends_onResponse {eid : Eid} {bytes : List UInt8} :
    Act.Ends (onResponse eid bytes) m link journal fun _ m' _ =>
      Moves ⟨m, []⟩ (m.driven link journal (takeIn eid bytes)) ⟨m', []⟩ := by
  rw [onResponse_eq]
  refine ends_goOn (ends_takeIn.mono ?_)
  rintro _ m' _ (⟨rfl, rfl⟩ | ⟨completion, rfl, moves⟩)
  · rfl
  · exact moves

/-- When time passes, requests expire, and their outcomes are taken in. -/
theorem ends_opening_update (m : Monitor μ) (link : Link) (journal : Journal) (now : Nat) :
    Act.Ends (Operation.opening (.update now)) m link journal fun result m' _ =>
      match result with
      | .ok (some completions) => Moves ⟨m, []⟩ (completions.map .settled) ⟨m', []⟩
      | _ => m' = m := by
  simp only [Operation.opening, onRequests, onWatch, Watch.onRequests, Act.ends_bind, Act.ends_on]
  refine Correlator.ends_update.mono ?_
  intro result c _ lapse
  cases lapse with
  | reversed => rfl
  | @expired completions c forward sheds late =>
    simp only [Act.ends_ofTask, Act.ends_pure]
    refine ends_completeAll.mono ?_
    intro _ m' _ ended
    subst ended
    have ticks : Move ⟨m, []⟩ [] ⟨m.withRequests { m.toCorrelator with clock := now }, []⟩ :=
      .aside ⟨rfl, rfl, rfl, rfl, rfl, rfl, rfl⟩
    have settles : Moves ⟨m.withRequests c, completions ++ []⟩ (completions.map .settled)
        ⟨completions.foldl settled (m.withRequests c), []⟩ := .settle
    rw [List.append_nil] at settles
    exact (Moves.step ticks (.of_sheds sheds rfl late)).trans settles

/-- A tick may follow when walks have gone on. -/
theorem update_eq (now : Nat) :
    (update now : Act (Monitor μ) Nat) = (do
      goOn (Operation.opening (.update now))
      let poll ← onWatch (Watch.poll .reading now)
      return min poll (← get).nextDelay) := by
  simp only [update, goOn, Operation.opening, bind_assoc, pure_bind]

theorem Keyed.ends_update (keyed : m.Keyed) {now : Nat} :
    Act.Ends (update now) m link journal fun _ m' _ =>
      Moves ⟨m, []⟩ (m.driven link journal (Operation.opening (.update now)) ++
        Operation.ticked m link journal (.update now)) ⟨m', []⟩ := by
  have driven := Act.ends_iff.mp (ends_goOn (ends_opening_update m link journal now))
  rw [update_eq, Act.ends_bind, Act.ends_iff]
  simp only [Operation.ticked]
  generalize Act.result _ m link journal = result, Act.state _ m link journal = m₁,
    Act.journal _ m link journal = journal₁ at driven ⊢
  cases result with
  | error fault => simpa using driven
  | ok =>
    have keyed₁ : m₁.Keyed := driven.preserves (·.monitor.Keyed) Keyed.move keyed
    simp only [Act.ends_bind, onWatch, Act.ends_on]
    refine keyed₁.ends_poll.mono ?_
    intro result w _ polls
    cases result with
    | error fault => exact driven.trans polls
    | ok delay => exact driven.trans polls

/-- A walk is started unless one is under way. -/
theorem ends_opening_discover (m : Monitor μ) (link : Link) (journal : Journal) (tid : Tid) :
    Act.Ends (Operation.opening (.discover tid)) m link journal fun result m' journal' =>
      if m.termini.contains tid && !m.isDiscovering tid then
        result = .ok (some []) ∧ m' = { m with walks := m.walks.insert tid {} } ∧
          journal' = journal ++ [.logged (.discovering tid)]
      else result = .ok none := by
  simp only [Operation.opening, Act.ends_bind, Act.ends_get]
  split <;> simp [Except.map]

/-- A walk that is started asks for its first record at once. -/
theorem ends_discover_idle {tid : Tid} (known : m.termini.contains tid = true)
    (idle : m.isDiscovering tid = false) :
    Act.Ends (discover tid) m link journal fun _ m' _ =>
      Moves ⟨{ m with walks := m.walks.insert tid {} }, []⟩
        (m.driven link journal (Operation.opening (.discover tid))) ⟨m', []⟩ := by
  have opens := Act.ends_iff.mp (ends_opening_discover m link journal tid)
  simp only [known, idle, Bool.not_false, Bool.and_true, if_true] at opens
  obtain ⟨result, state, after⟩ := opens
  simp only [discover, driven, result, state, after, Act.ends_bind, Act.ends_get, known, idle,
    Bool.not_true, Bool.false_eq_true, if_false, Act.ends_lift, Effect.ends_log, Act.ends_modify]
  exact ends_advance

theorem ends_discover {tid : Tid} :
    Act.Ends (discover tid) m link journal fun _ m' _ =>
      Moves ⟨m, []⟩ (Operation.arranged m (.discover tid) ++
        m.driven link journal (Operation.opening (.discover tid))) ⟨m', []⟩ := by
  have opens := Act.ends_iff.mp (ends_opening_discover m link journal tid)
  cases known : m.termini.contains tid with
  | false =>
    simp only [known, Bool.false_and, Bool.false_eq_true, if_false] at opens
    simp only [discover, Operation.arranged, driven, opens, known, Act.ends_bind, Act.ends_get]
    exact .done
  | true =>
    cases running : m.isDiscovering tid with
    | true =>
      simp only [known, running, Bool.not_true, Bool.and_false, Bool.false_eq_true, if_false]
        at opens
      simp only [discover, Operation.arranged, driven, opens, known, running, Bool.not_true,
        Bool.and_false, Bool.false_eq_true, if_false, if_true, Act.ends_bind, Act.ends_get]
      exact .done
    | false =>
      obtain ⟨terminus, found⟩ := Table.contains_iff.mp known
      have begun : Move ⟨m, []⟩ [.begun tid] ⟨{ m with walks := m.walks.insert tid {} }, []⟩ :=
        .begun found (Table.contains_eq_false_iff.mp running)
      simp only [Operation.arranged, known, running, Bool.not_false, Bool.and_true, if_true]
      refine (ends_discover_idle known running).mono ?_
      intro _ _ _ asks
      exact .step begun asks

/-- Whatever its text is, a message is answered as a request or looked at as a response. -/
theorem ends_onMessage_of [UpdateManager μ] {eid : Eid} {bytes : List UInt8}
    {post : Except Fault Unit → Monitor μ → Journal → Prop}
    (request : ∀ journal, Act.Ends (onRequest eid bytes) m link journal post)
    (response : ∀ journal, Act.Ends (onResponse eid bytes) m link journal post) :
    Act.Ends (onMessage eid bytes) m link journal post := by
  unfold onMessage
  split
  next =>
    split
    next => exact request journal
    next => exact response journal
  next =>
    simp only [Act.ends_bind, Act.ends_lift, Effect.ends_remark]
    exact response _

theorem ends_onMessage [UpdateManager μ] {eid : Eid} {bytes : List UInt8} :
    Act.Ends (onMessage eid bytes) m link journal fun _ m' _ =>
      Moves ⟨m, []⟩ (m.driven link journal (Operation.opening (.message eid bytes))) ⟨m', []⟩ := by
  simp only [onMessage, Operation.opening]
  cases Header.ofBytes bytes with
  | error fault =>
    dsimp only
    rw [Act.ends_bind]
    exact ends_onResponse
  | ok header =>
    dsimp only
    cases header.request with
    | true => exact ends_onRequest
    | false => exact ends_onResponse

end Monitor

/-- An operation is a sequence of moves with its deeds. -/
theorem Operation.ends_act [UpdateManager μ] (keyed : m.Keyed) (operation : Operation μ) :
    Act.Ends operation.act m link journal fun _ m' _ =>
      Moves ⟨m, []⟩ (operation.deeds m link journal) ⟨m', []⟩ := by
  -- Most operations take in no outcomes, and only an update ticks.
  have still {deeds : List Deed} {m' : Monitor μ} (moves : Moves ⟨m, []⟩ deeds ⟨m', []⟩) :
      Moves ⟨m, []⟩ (deeds ++ m.driven link journal (pure none) ++ []) ⟨m', []⟩ := by
    change Moves ⟨m, []⟩ (deeds ++ [] ++ []) ⟨m', []⟩
    rwa [List.append_nil, List.append_nil]
  have untimed {deeds : List Deed} {m' : Monitor μ} (moves : Moves ⟨m, []⟩ deeds ⟨m', []⟩) :
      Moves ⟨m, []⟩ (deeds ++ []) ⟨m', []⟩ := by rwa [List.append_nil]
  cases operation with
  | add tid eid name => exact Monitor.ends_add.mono fun _ _ _ moves => still moves
  | remove tid =>
    simp only [act, deeds, arranged, opening, ticked]
    cases known : m.termini.get? tid with
    | none =>
      simp only [Monitor.remove, Act.ends_bind, Act.ends_get, known,
        Table.contains_eq_false_iff.mpr known]
      exact .done
    | some terminus =>
      rw [if_pos (Table.contains_iff.mpr ⟨_, known⟩)]
      refine (Monitor.ends_remove known).mono ?_
      rintro _ _ _ ⟨_, _, moves⟩
      exact still moves
  | markUnreachable tid => exact Monitor.ends_markUnreachable.mono fun _ _ _ moves => still moves
  | discover tid => exact Monitor.ends_discover.mono fun _ _ _ moves => untimed moves
  | startPolling =>
    simp only [act, Monitor.startPolling, Act.ends_bind, Act.ends_get, Monitor.onWatch, Act.ends_on,
      Act.ends_ofTask, Watch.onPoller, Task.ends_on, Poller.start, Task.ends_bind, Task.ends_get]
    split <;> exact .single (.aside ⟨rfl, rfl, rfl, rfl, rfl, rfl, rfl⟩)
  | stopPolling =>
    simp only [act, Monitor.stopPolling, Monitor.onWatch, Act.ends_on,
      Act.ends_ofTask, Watch.onPoller, Task.ends_on, Poller.stop, Task.ends_bind, Task.ends_get]
    split <;> exact .single (.aside ⟨rfl, rfl, rfl, rfl, rfl, rfl, rfl⟩)
  | setProperty path property value => exact Monitor.ends_setProperty
  | load mapping =>
    cases mapping with
    | error fault => exact .done
    | ok mapping =>
      simp only [act, Monitor.load, Act.ends_bind, Act.ends_lift, Effect.ends_log, Act.ends_modify]
      exact .single .mapped
  | update now =>
    simp only [act, Act.ends_discard]
    exact keyed.ends_update
  | message eid bytes => exact Monitor.ends_onMessage.mono fun _ _ _ moves => untimed moves
  | response eid bytes => exact Monitor.ends_onResponse.mono fun _ _ _ moves => untimed moves
  | manage change => exact .single (.aside ⟨rfl, rfl, rfl, rfl, rfl, rfl, rfl⟩)
  | share ids => exact .single .shared

/-- A turn is a sequence of moves with its deeds. -/
theorem Turn.moves [UpdateManager μ] (keyed : m.Keyed) (t : Turn μ) :
    Moves ⟨m, []⟩ (t.deeds m) ⟨t.after m, []⟩ :=
  Operation.ends_act keyed t.operation

/-- Turns keep sensors under their own keys, -/
theorem Turn.keyed_run [UpdateManager μ] (keyed : m.Keyed) (turns : List (Turn μ)) :
    (Turn.run turns m).Keyed := by
  induction turns generalizing m with
  | nil => exact keyed
  | cons t rest ih =>
    exact ih ((Turn.moves keyed t).preserves (·.monitor.Keyed) Monitor.Keyed.move keyed)

/-- what each move keeps up, as it adds to what was done, -/
theorem Turn.run_records [UpdateManager μ] (keyed : m.Keyed) (turns : List (Turn μ))
    (inv : List Deed → Scene μ → Prop)
    (step : ∀ {past s deeds s'}, Move s deeds s' → inv past s → inv (past ++ deeds) s')
    (past : List Deed) (start : inv past ⟨m, []⟩) :
    inv (past ++ Turn.trace turns m) ⟨Turn.run turns m, []⟩ := by
  induction turns generalizing m past with
  | nil => simpa [Turn.trace, Turn.run] using start
  | cons t rest ih =>
    rw [Turn.trace, ← List.append_assoc]
    exact ih (Turn.keyed_run keyed [t]) _ ((Turn.moves keyed t).records inv step past start)

/-- and what each move preserves. -/
theorem Turn.run_preserves [UpdateManager μ] (keyed : m.Keyed) (turns : List (Turn μ))
    (inv : Scene μ → Prop) (step : ∀ {s deeds s'}, Move s deeds s' → inv s → inv s')
    (start : inv ⟨m, []⟩) : inv ⟨Turn.run turns m, []⟩ :=
  Turn.run_records keyed turns (fun _ => inv) (fun move => step move) [] start

/-- A monitor of no termini has no sensors. -/
theorem Monitor.keyed_startWith (ids : Pools) (policy : RetryPolicy) (interval now : Nat) :
    (Monitor.startWith ids policy interval now : Monitor μ).Keyed :=
  ⟨fun known _ => (nomatch known), fun found _ => (nomatch found)⟩

end TerminusMonitor
