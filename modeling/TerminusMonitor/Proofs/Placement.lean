import TerminusMonitor.Proofs.Deeds
import TerminusMonitor.Simulation.Peer
import TerminusMonitor.Simulation.Scripted

/-!
Where the requests for readings were sent, and where their termini are.

* `Move.home`: the deeds tell at which endpoint a terminus is, and `Moves.home_of_stays`: that it
  stays there unless it is removed;
* `Scene.Sent.move`: each request for a reading was sent to the endpoint at which its
  terminus was then;
* `reading_outcome_home`: when the outcome of such a request comes, the terminus is
  where it was placed last since the request was sent, and at the endpoint of the
  request if it was not placed since.
-/

namespace TerminusMonitor

variable {μ : Type}

/-! ### Homes -/

/-- The endpoint of a terminus. -/
def Monitor.home (m : Monitor μ) (tid : Tid) : Option Eid := (m.termini.get? tid).map (·.eid)

namespace Deed

/-- The endpoint of a terminus after a deed. -/
def rehome (tid : Tid) (home : Option Eid) : Deed → Option Eid
  | placed tid' eid => if tid' = tid then some eid else home
  | removed tid' => if tid' = tid then none else home
  | _ => home

/-- The endpoint at which a deed places a terminus, if it does. -/
def placement? (tid : Tid) : Deed → Option Eid
  | placed tid' eid => if tid' = tid then some eid else none
  | _ => none

/-- The endpoints at which deeds place a terminus, one after the other. -/
def placements (tid : Tid) (deeds : List Deed) : List Eid := deeds.filterMap (placement? tid)

/-- A terminus that is known is where it was placed last, or else where it was at the
start. -/
theorem home_eq_last_placement {tid : Tid} {start : Option Eid} {home : Eid} {deeds : List Deed}
    (known : deeds.foldl (rehome tid) start = some home) :
    (placements tid deeds).getLast?.or start = some home := by
  induction deeds generalizing start with
  | nil => exact known
  | cons deed rest ih =>
    have later := ih known
    cases deed with
    | placed tid' eid =>
      by_cases same : tid' = tid
      · have first : placements tid (placed tid' eid :: rest) = eid :: placements tid rest := by
          simp [placements, placement?, same]
        rw [rehome, if_pos same] at later
        rw [first, List.getLast?_cons, ← later]
        cases (placements tid rest).getLast? <;> rfl
      · simpa [rehome, placements, placement?, if_neg same] using later
    | removed tid' =>
      by_cases same : tid' = tid
      · rw [rehome, if_pos same, Option.or_none] at later
        change (placements tid rest).getLast?.or start = some home
        rw [later, Option.some_or]
      · rwa [rehome, if_neg same] at later
    | _ => exact later

end Deed

namespace Monitor

variable {m : Monitor μ}

theorem home_modifyTerminus {tid tid' : Tid} {f : Terminus → Terminus}
    (same : ∀ terminus, (f terminus).eid = terminus.eid) :
    (m.modifyTerminus tid' f).home tid = m.home tid := by
  simp only [home, modifyTerminus, Table.get?_modify]
  split
  next eq => rw [eq, Option.map_map]; congr 1; funext terminus; exact same terminus
  next => rfl

theorem home_finished {tid tid' : Tid} : (m.finished tid').home tid = m.home tid := by
  unfold finished
  split
  next => rfl
  next => exact home_modifyTerminus fun _ => rfl

theorem home_settled {tid : Tid} {completion : Completion Purpose} :
    (m.settled completion).home tid = m.home tid := by
  obtain ⟨key, cookie, result⟩ := completion
  have noted {tid' : Tid} {record : Record} : (m.noted tid' record).home tid = m.home tid := by
    unfold noted
    split <;> rfl
  cases cookie with
  | reading sensor =>
    simp only [settled, Watch.settled]
    split
    next => rfl
    next => exact home_modifyTerminus (m := { m with poller := _ }) fun _ => rfl
  | record tid' handle =>
    simp only [settled, recorded]
    split
    next => rfl
    next =>
      split
      next => exact home_finished
      next =>
        split
        next => exact home_finished.trans noted
        next => exact noted
  | effecter => rfl

end Monitor

namespace Move

variable {s s' : Scene μ} {deeds : List Deed}

/-- The deeds tell where a terminus is. -/
theorem home (move : Move s deeds s') (tid : Tid) :
    s'.monitor.home tid = deeds.foldl (Deed.rehome tid) (s.monitor.home tid) := by
  cases move with
  | aside alike => simp only [Monitor.home, alike.termini]; rfl
  | @placed m _ tid' eid name unknown =>
    simp only [Monitor.home, Table.get?_insert, List.foldl_cons, List.foldl_nil, Deed.rehome,
      eq_comm (a := tid)]
    split <;> rfl
  | reached => exact Monitor.home_modifyTerminus fun _ => rfl
  | lost => exact Monitor.home_modifyTerminus fun _ => rfl
  | @removed m _ tid' terminus inventory known =>
    simp only [Monitor.home, Table.get?_erase, List.foldl_cons, List.foldl_nil, Deed.rehome,
      eq_comm (a := tid)]
    split <;> rfl
  | mapped => rfl
  | shared => rfl
  | dropped => rfl
  | renewed => rfl
  | shed => rfl
  | settled => exact Monitor.home_settled
  | begun => rfl
  | strayed => rfl
  | asked => rfl
  | unsent => exact Monitor.home_finished
  | refused => rfl
  | polled => rfl
  | failed => exact Monitor.home_modifyTerminus (m := Monitor.withRequests _ _) fun _ => rfl
  | set => rfl

/-- A terminus that is not removed stays where it is. -/
theorem home_of_stays (move : Move s deeds s') {tid : Tid} {eid : Eid}
    (home : s.monitor.home tid = some eid) (stays : .removed tid ∉ deeds) :
    s'.monitor.home tid = some eid := by
  rw [move.home, home]
  cases move with
  | @placed m _ tid' _ _ unknown =>
    have other : tid' ≠ tid := by
      rintro rfl
      rw [Monitor.home, unknown] at home
      cases home
    exact if_neg other
  | @removed m _ tid' =>
    have other : tid' ≠ tid := fun same => stays (same ▸ List.mem_singleton_self _)
    exact if_neg other
  | _ => rfl

end Move

theorem Moves.home_of_stays {s s' : Scene μ} {deeds : List Deed} (moves : Moves s deeds s')
    {tid : Tid} {eid : Eid} (home : s.monitor.home tid = some eid)
    (stays : .removed tid ∉ deeds) : s'.monitor.home tid = some eid := by
  induction moves with
  | done => exact home
  | step move _ ih =>
    rw [List.mem_append, not_or] at stays
    exact ih (move.home_of_stays home stays.1) stays.2

theorem Moves.home {s s' : Scene μ} {deeds : List Deed} (moves : Moves s deeds s') (tid : Tid) :
    s'.monitor.home tid = deeds.foldl (Deed.rehome tid) (s.monitor.home tid) := by
  induction moves with
  | done => rfl
  | step move _ ih => rw [List.foldl_append, ih, move.home]

/-- Deeds that arrange nothing leave termini where they are. -/
theorem Deed.rehome_quiet {tid : Tid} {deeds : List Deed}
    (quiet : ∀ deed ∈ deeds, deed.arranges = false) (home : Option Eid) :
    deeds.foldl (rehome tid) home = home := by
  induction deeds with
  | nil => rfl
  | cons deed rest ih =>
    obtain ⟨quietFirst, quietRest⟩ := List.forall_mem_cons.mp quiet
    have same : rehome tid home deed = home := by
      cases deed with
      | placed | removed => cases quietFirst
      | _ => rfl
    rw [List.foldl_cons, same]
    exact ih quietRest

/-! ### Requests for readings -/

namespace Scene

variable {s s' : Scene μ} {past deeds : List Deed}

/-- Each request for a reading, after what was done so far: it was sent and is not over,
and its terminus is where the deeds since then have left it. -/
structure Sent (past : List Deed) (s : Scene μ) : Prop where
  keys : (s.requests.map Prod.fst).Nodup
  sent : ∀ {key sensor}, (key, .reading sensor) ∈ s.requests → ∃ earlier since,
    past = earlier ++ .polled key sensor :: since ∧
      (∀ completion, .settled completion ∈ since → completion.key ≠ key) ∧
      s.monitor.home sensor.tid = since.foldl (Deed.rehome sensor.tid) (some key.eid)

namespace Sent

/-- Requests that are still under way after a move were sent where they were before. -/
theorem since (start : s.Sent past) (move : Move s deeds s') {key : RequestKey}
    {sensor : SensorKey} (before : (key, .reading sensor) ∈ s.requests)
    (unsettled : ∀ completion, .settled completion ∈ deeds → completion.key ≠ key) :
    ∃ earlier since, past ++ deeds = earlier ++ .polled key sensor :: since ∧
      (∀ completion, .settled completion ∈ since → completion.key ≠ key) ∧
      s'.monitor.home sensor.tid = since.foldl (Deed.rehome sensor.tid) (some key.eid) := by
  obtain ⟨earlier, since, rfl, unsettled', home⟩ := start.sent before
  refine ⟨earlier, since ++ deeds, by simp, ?_, ?_⟩
  · intro completion mem
    rcases List.mem_append.mp mem with before | now
    · exact unsettled' completion before
    · exact unsettled completion now
  · rw [move.home, home, List.foldl_append]

theorem kept (start : s.Sent past) (move : Move s deeds s')
    (requests : s'.requests.Perm s.requests)
    (unsettled : ∀ completion, .settled completion ∉ deeds) :
    s'.Sent (past ++ deeds) where
  keys := (requests.map Prod.fst).nodup_iff.mpr start.keys
  sent mem := start.since move (requests.mem_iff.mp mem)
    fun completion settled => (unsettled completion settled).elim

theorem added {request : RequestKey × Purpose} (start : s.Sent past) (move : Move s deeds s')
    (requests : s'.requests.Perm (request :: s.requests))
    (fresh : request.1 ∉ s.requests.map Prod.fst)
    (unsettled : ∀ completion, .settled completion ∉ deeds)
    (polls : ∀ {sensor}, request.2 = .reading sensor →
      deeds = [.polled request.1 sensor] ∧ s.monitor.home sensor.tid = some request.1.eid) :
    s'.Sent (past ++ deeds) where
  keys := (requests.map Prod.fst).nodup_iff.mpr (List.nodup_cons.mpr ⟨fresh, start.keys⟩)
  sent {key sensor} mem := by
    rcases List.mem_cons.mp (requests.mem_iff.mp mem) with rfl | mem
    · obtain ⟨rfl, home⟩ := polls rfl
      refine ⟨past, [], rfl, ?_, ?_⟩
      · intro completion settled
        cases settled
      · rw [move.home, home]
        rfl
    · exact start.since move mem fun completion settled => (unsettled completion settled).elim

theorem move (step : Move s deeds s') (start : s.Sent past) : s'.Sent (past ++ deeds) := by
  have move := step
  have silent (completion : Completion Purpose) : .settled completion ∉ ([] : List Deed) :=
    List.not_mem_nil
  have other {deed : Deed} (none : deed.outcome? = none) (completion : Completion Purpose) :
      .settled completion ∉ [deed] := by
    intro mem
    cases List.mem_singleton.mp mem
    cases none
  cases step with
  | aside alike => exact start.kept move (.of_eq (requests_congr alike.pending)) silent
  | placed => exact start.kept move (.refl _) (other rfl)
  | reached => exact start.kept move (.refl _) silent
  | lost => exact start.kept move (.refl _) (other rfl)
  | removed => exact start.kept move (.refl _) (other rfl)
  | mapped => exact start.kept move (.refl _) (other rfl)
  | shared => exact start.kept move (.refl _) (other rfl)
  | dropped => exact start.kept move (.refl _) silent
  | renewed => exact start.kept move (.of_eq requests_renewed) silent
  | shed pending cookie => exact start.kept move (requests_shed pending cookie) silent
  | @settled m hand completion =>
    have perm := requests_settled m hand completion
    obtain ⟨done, keys⟩ := List.nodup_cons.mp ((perm.map Prod.fst).nodup_iff.mp start.keys)
    refine ⟨keys, fun mem => start.since move (perm.mem_iff.mpr (.tail _ mem)) ?_⟩
    rintro completion' settled rfl
    cases List.mem_singleton.mp settled
    exact done (List.mem_map.mpr ⟨_, mem, rfl⟩)
  | begun => exact start.kept move (.refl _) (other rfl)
  | strayed => exact start.kept move (.refl _) silent
  | asked known found waiting free fresh =>
    exact start.added move (requests_opened fresh rfl) (key_notMem_requests fresh) (other rfl)
      nofun
  | unsent =>
    obtain ⟨requests, _⟩ := Monitor.finished_frame (Monitor.withRequests _ _) _
    exact start.kept move (.of_eq (requests_congr (by rw [requests]; rfl))) (other rfl)
  | refused => exact start.kept move (.refl _) silent
  | polled known listed reachable due free fresh =>
    refine start.added move (requests_opened fresh rfl) (key_notMem_requests fresh) (other rfl) ?_
    intro sensor asks
    cases asks
    exact ⟨rfl, by rw [Monitor.home, known]; rfl⟩
  | failed => exact start.kept move (.refl _) silent
  | set free fresh =>
    exact start.added move (requests_opened fresh rfl) (key_notMem_requests fresh) silent nofun

end Sent

end Scene

/-! ### Outcomes -/

/-- When the outcome of a request for a reading comes, the terminus of the sensor is
where it was placed last since the request was sent, and else at the endpoint of the
request. So the two are the same exactly when that last placement, if there is one, was
at the endpoint of the request. -/
theorem reading_outcome_home [UpdateManager μ] (ids : Pools) (policy : RetryPolicy)
    (interval now : Nat) (turns : List (Turn μ)) (t : Turn μ) {completion : Completion Purpose}
    {sensor : SensorKey} {terminus : Terminus} :
    let start : Monitor μ := .startWith ids policy interval now
    let m := Turn.run turns start
    completion ∈ t.outcomes m → completion.cookie = .reading sensor →
      m.termini.get? sensor.tid = some terminus →
      ∃ earlier since, Turn.trace turns start = earlier ++ .polled completion.key sensor :: since ∧
        (∀ other, .settled other ∈ since → other.key ≠ completion.key) ∧
        terminus.eid = (Deed.placements sensor.tid since).getLast?.getD completion.key.eid ∧
        (terminus.eid = completion.key.eid ↔
          ∀ eid, (Deed.placements sensor.tid since).getLast? = some eid →
            eid = completion.key.eid) := by
  intro start m settles reading known
  have sent : Scene.Sent (Turn.trace turns start) ⟨m, []⟩ :=
    Turn.run_records (Monitor.keyed_startWith ..) turns Scene.Sent Scene.Sent.move [] ⟨.nil, nofun⟩
  have pending := Turn.outcome_pending settles
  rw [reading] at pending
  obtain ⟨earlier, since, trace, unsettled, home⟩ := sent.sent (Scene.mem_requests.mpr pending)
  refine ⟨earlier, since, trace, unsettled, ?_⟩
  rw [Monitor.home, known] at home
  have last := Deed.home_eq_last_placement home.symm
  cases placed : (Deed.placements sensor.tid since).getLast? with
  | none =>
    rw [placed] at last
    have same : completion.key.eid = terminus.eid := Option.some.inj last
    exact ⟨same.symm, fun _ => nofun, fun _ => same.symm⟩
  | some eid =>
    rw [placed] at last
    have same : eid = terminus.eid := Option.some.inj last
    refine ⟨same.symm, ?_, ?_⟩
    · intro still eid' last'
      cases last'
      exact same.trans still
    · intro last
      exact same.symm.trans (last eid rfl)

/-- A terminus is asked for a reading and then moves, before the answer comes. Its sensor
is found anew. -/
def movedMeanwhile : List (Turn Scripted) :=
  [{ operation := .add 1 8 "Rack" },
    { operation := .discover 1 },
    { operation := .message 8 (FetchRecord.answering 0 0 (.temperature 1)) },
    { operation := .startPolling },
    { operation := .update 0 },
    { operation := .add 1 9 "Rack" },
    { operation := .discover 1 },
    { operation := .message 9 (FetchRecord.answering 0 0 (.temperature 1)) }]

/-- The answer comes from the endpoint where the terminus was. -/
def lateAnswer : Turn Scripted :=
  { operation := .message 8 (ReadSensor.answering 0 .unavailable (.u8 0)) }

theorem reading_outcome_home_moved :
    let start : Monitor Scripted := .startWith {} {} 250 0
    let m := Turn.run movedMeanwhile start
    ∃ completion terminus, completion ∈ lateAnswer.outcomes m ∧
      completion.cookie = .reading ⟨1, 1⟩ ∧ m.termini.get? 1 = some terminus ∧
      ∃ earlier since,
        Turn.trace movedMeanwhile start = earlier ++ .polled completion.key ⟨1, 1⟩ :: since ∧
        (∀ other, .settled other ∈ since → other.key ≠ completion.key) ∧
        terminus.eid = (Deed.placements 1 since).getLast?.getD completion.key.eid ∧
        (terminus.eid = completion.key.eid ↔
          ∀ eid, (Deed.placements 1 since).getLast? = some eid → eid = completion.key.eid) := by
  dsimp only
  have answered : ∃ completion ∈
      lateAnswer.outcomes (Turn.run movedMeanwhile (.startWith {} {} 250 0)),
      completion.cookie = .reading ⟨1, 1⟩ := by
    decide +kernel
  have registered :
      ((Turn.run movedMeanwhile (.startWith {} {} 250 0)).termini.get? 1).isSome = true := by
    decide +kernel
  obtain ⟨completion, settles, reading⟩ := answered
  obtain ⟨terminus, known⟩ := Option.isSome_iff_exists.mp registered
  have law := @reading_outcome_home Scripted _ {} {} 250 0 movedMeanwhile lateAnswer completion
    ⟨1, 1⟩ terminus
  dsimp only at law
  exact ⟨completion, terminus, settles, reading, known, law settles reading known⟩

/-- The request went to endpoint 8, the terminus is at endpoint 9, and the answer takes
the sensor that was found there out of service. -/
theorem stale_reading_taken :
    let m := Turn.run movedMeanwhile (.startWith {} {} 250 0)
    (lateAnswer.outcomes m).map (fun completion => (completion.key, completion.cookie)) =
        [(⟨8, 0⟩, .reading ⟨1, 1⟩)] ∧
      m.home 1 = some 9 ∧
      (m.sensor? ⟨1, 1⟩).map (·.available) = some true ∧
      ((lateAnswer.after m).sensor? ⟨1, 1⟩).map (·.available) = some false := by
  decide +kernel

end TerminusMonitor
