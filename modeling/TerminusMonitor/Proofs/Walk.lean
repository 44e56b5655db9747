import TerminusMonitor.Proofs.Course
import TerminusMonitor.Proofs.Requests
import TerminusMonitor.Simulation.Peer
import TerminusMonitor.Simulation.Scripted

/-!
Walks through the records of a terminus.

Between moves the walk of a terminus is where its course stands (`Follows`): the record
to ask for, the request under way, the records seen and the sensors found.

* `Follows.move`: a move that does not remove the terminus is one of the course;
* `Follows.turn`: so is a turn, and a turn that ends a walk leaves exactly the sensors
  found;
* `Deed.requests_of_fetchedBy`: the messages of a walk, among those of all walks;
* `walk_follows_course`: a walk takes its course, whatever else the turns do meanwhile.
-/

namespace TerminusMonitor

variable {μ : Type}

/-! ### Requests for records -/

/-- The record of a terminus that a request asks for, if it asks for one. -/
def Purpose.record? (tid : Tid) : Purpose → Option UInt32
  | .record tid' handle => if tid' = tid then some handle else none
  | _ => none

namespace Scene

variable {s s' : Scene μ} {tid : Tid}

/-- The requests for records of a terminus. -/
def fetches (s : Scene μ) (tid : Tid) : List (RequestKey × UInt32) :=
  s.requests.filterMap fun request => (request.2.record? tid).map (request.1, ·)

theorem fetches_cons (tid : Tid) {request : RequestKey × Purpose}
    (requests : s'.requests.Perm (request :: s.requests)) :
    (s'.fetches tid).Perm
      (((request.2.record? tid).map (request.1, ·)).toList ++ s.fetches tid) := by
  refine (requests.filterMap _).trans (.of_eq ?_)
  rw [List.filterMap_cons]
  cases request.2.record? tid <;> rfl

theorem mem_fetches {m : Monitor μ} {key : RequestKey} {handle : UInt32} :
    (key, handle) ∈ fetches ⟨m, []⟩ tid ↔ m.IsPending key (.record tid handle) := by
  simp only [fetches, List.mem_filterMap, Prod.exists, Option.map_eq_some_iff, Prod.mk.injEq]
  constructor
  · rintro ⟨key, purpose, mem, handle, asks, rfl, rfl⟩
    cases purpose with
    | record tid' handle' =>
      simp only [Purpose.record?] at asks
      split at asks
      next eq => cases asks; exact eq ▸ mem_requests.mp mem
      next => cases asks
    | _ => cases asks
  · intro pending
    exact ⟨key, _, mem_requests.mpr pending, handle, if_pos rfl, rfl, rfl⟩

end Scene

/-! ### Other walks -/

namespace Monitor

variable {m m' m'' : Monitor μ} {tid tid' : Tid}

/-- Two monitors that agree on a terminus and on how its records are read. -/
structure AgreeOn (tid : Tid) (m m' : Monitor μ) : Prop where
  mapping : m'.mapping = m.mapping
  walk : m'.walks.get? tid = m.walks.get? tid
  terminus : m'.termini.get? tid = m.termini.get? tid

theorem AgreeOn.trans (first : AgreeOn tid m m') (second : AgreeOn tid m' m'') :
    AgreeOn tid m m'' :=
  ⟨second.mapping.trans first.mapping, second.walk.trans first.walk,
    second.terminus.trans first.terminus⟩

theorem finished_agree (other : tid' ≠ tid) : AgreeOn tid m (m.finished tid') := by
  unfold finished
  split
  next => exact ⟨rfl, rfl, rfl⟩
  next =>
    exact ⟨rfl, Table.get?_erase_of_ne other.symm, Table.get?_modify_of_ne _ other.symm⟩

theorem noted_agree (other : tid' ≠ tid) {record : Record} :
    AgreeOn tid m (m.noted tid' record) := by
  unfold noted
  split
  next => exact ⟨rfl, rfl, rfl⟩
  next => exact ⟨rfl, Table.get?_modify_of_ne _ other.symm, rfl⟩

/-- A record of another terminus does not matter. -/
theorem recorded_agree (other : tid' ≠ tid) {result : Except Fault Response} :
    AgreeOn tid m (m.recorded tid' result) := by
  unfold recorded
  split
  next => exact ⟨rfl, rfl, rfl⟩
  next =>
    split
    next => exact finished_agree other
    next =>
      dsimp only
      split
      next => exact (noted_agree other).trans (finished_agree other)
      next =>
        exact (noted_agree other).trans ⟨rfl, Table.get?_modify_of_ne _ other.symm, rfl⟩

/-- The end of a walk puts the sensors found in the place of the others. -/
theorem finished_own {walk : Walk} {terminus : Terminus} (found : m.walks.get? tid = some walk)
    (known : m.termini.get? tid = some terminus) :
    (m.finished tid).mapping = m.mapping ∧ (m.finished tid).walks.get? tid = none ∧
      (m.finished tid).termini.get? tid = some { terminus with sensors := walk.sensors } := by
  unfold finished
  rw [found]
  exact ⟨rfl, Table.get?_erase_self, by rw [Table.get?_modify, if_pos rfl, known]; rfl⟩

end Monitor

/-! ### Following a course -/

namespace Course

/-- A walk that is where its course stands. -/
structure Stands (c : Course) (walk : Walk) : Prop where
  inFlight : walk.inFlight = c.stage.upcoming.isEmpty
  next : ∀ handle ∈ c.stage.upcoming, handle = walk.next
  seen : ∀ handle, walk.seen.contains handle = true ↔ handle ∈ c.asked ++ c.stage.upcoming
  sensors : ∀ sensor, walk.sensors.get? sensor = c.sensor? sensor

/-- A terminus whose sensors are, readings apart, those it had before its walk. Once the
walk is over they are those found, as long as no reading has come. -/
structure Rosters (c : Course) (start : Terminus) (past : List Deed) (terminus : Terminus) :
    Prop where
  name : terminus.name = start.name
  kept : c.stage ≠ .ended → ∀ sensor,
    (terminus.sensors.get? sensor).map (·.unread) = (start.sensors.get? sensor).map (·.unread)
  found : c.stage = .ended → ∃ before deed since, past = before ++ deed :: since ∧
    deed.arranges = false ∧ ((∀ deed ∈ since, deed.Calm) →
      ∀ sensor, terminus.sensors.get? sensor = c.sensor? sensor)

/-- What a move leaves of the sensors. -/
theorem Rosters.move {c : Course} {start terminus terminus' : Terminus} {past deeds : List Deed}
    (rosters : c.Rosters start past terminus) (name : terminus'.name = terminus.name)
    (unread : ∀ sensor, (terminus'.sensors.get? sensor).map (·.unread) =
      (terminus.sensors.get? sensor).map (·.unread))
    (calm : (∀ deed ∈ deeds, deed.Calm) →
      (∀ sensor, terminus.sensors.get? sensor = c.sensor? sensor) →
      terminus'.sensors = terminus.sensors) :
    c.Rosters start (past ++ deeds) terminus' where
  name := name.trans rosters.name
  kept underWay sensor := (unread sensor).trans (rosters.kept underWay sensor)
  found ended := by
    obtain ⟨before, deed, since, rfl, takesIn, exact'⟩ := rosters.found ended
    refine ⟨before, deed, since ++ deeds, by simp, takesIn, ?_⟩
    intro quiet sensor
    have sensors := exact' fun deed mem => quiet deed (List.mem_append_left _ mem)
    rw [calm (fun deed mem => quiet deed (List.mem_append_right _ mem)) sensors, sensors]

end Course

/-- The walk of a terminus is where its course stands. -/
structure Follows (tid : Tid) (start : Terminus) (past : List Deed) (c : Course) (s : Scene μ) :
    Prop where
  mapping : s.monitor.mapping = c.mapping
  once : (c.asked ++ c.stage.upcoming).Nodup
  blank : ∀ sensor ∈ c.found, sensor.fail = sensor
  fetches : (s.fetches tid).Perm c.stage.fetch
  ended : c.stage = .ended → s.monitor.walks.get? tid = none
  underWay : c.stage ≠ .ended → ∃ walk, s.monitor.walks.get? tid = some walk ∧ c.Stands walk
  known : ∃ terminus, s.monitor.termini.get? tid = some terminus ∧
    c.Rosters start past terminus

namespace Follows

variable {tid : Tid} {start : Terminus} {past deeds : List Deed} {c : Course} {s s' : Scene μ}

/-! ### Moves that leave the course alone -/

/-- A move that only concerns the sensors of the terminus. -/
theorem touched (follows : Follows tid start past c s)
    (mapping : s'.monitor.mapping = s.monitor.mapping)
    (walks : s'.monitor.walks.get? tid = s.monitor.walks.get? tid)
    (fetches : (s'.fetches tid).Perm (s.fetches tid))
    (known : ∀ terminus, s.monitor.termini.get? tid = some terminus →
      c.Rosters start past terminus → ∃ terminus', s'.monitor.termini.get? tid = some terminus' ∧
        c.Rosters start (past ++ deeds) terminus') :
    Follows tid start (past ++ deeds) c s' where
  mapping := mapping.trans follows.mapping
  once := follows.once
  blank := follows.blank
  fetches := fetches.trans follows.fetches
  ended ended := walks.trans (follows.ended ended)
  underWay underWay := walks ▸ follows.underWay underWay
  known := by
    obtain ⟨terminus, known', rosters⟩ := follows.known
    exact known terminus known' rosters

/-- A move that does not concern the terminus. -/
theorem apart (follows : Follows tid start past c s)
    (agree : Monitor.AgreeOn tid s.monitor s'.monitor)
    (fetches : (s'.fetches tid).Perm (s.fetches tid)) :
    Follows tid start (past ++ deeds) c s' :=
  follows.touched agree.mapping agree.walk fetches fun terminus known rosters =>
    ⟨terminus, agree.terminus.trans known, rosters.move rfl (fun _ => rfl) fun _ _ => rfl⟩

/-- A move that changes one sensor as a reading may change it. -/
theorem sensed (follows : Follows tid start past c s) (key : SensorKey)
    (f : NumericSensor → NumericSensor)
    (mapping : s'.monitor.mapping = s.monitor.mapping)
    (walks : s'.monitor.walks = s.monitor.walks)
    (fetches : (s'.fetches tid).Perm (s.fetches tid))
    (termini : s'.monitor.termini = s.monitor.termini.modify key.tid fun t =>
      { t with sensors := t.sensors.modify key.sensor f })
    (unread : ∀ s, (f s).unread = s.unread)
    (calm : (∀ deed ∈ deeds, deed.Calm) → ∀ s, s.fail = s → f s = s) :
    Follows tid start (past ++ deeds) c s' := by
  by_cases own : tid = key.tid
  · refine follows.touched mapping (by rw [walks]) fetches ?_
    intro terminus known rosters
    refine ⟨{ terminus with sensors := terminus.sensors.modify key.sensor f },
      by rw [termini, Table.get?_modify, if_pos own, ← own, known]; rfl, rosters.move rfl ?_ ?_⟩
    · intro sensor
      dsimp only
      rw [Table.get?_modify]
      split
      next eq =>
        rw [eq, Option.map_map]
        congr 1
        funext s
        exact unread s
      next => rfl
    · intro quiet sensors
      refine Table.modify_eq_self fun s listed => calm quiet s (follows.blank s ?_)
      rw [sensors] at listed
      exact (List.mem_filter.mp (List.mem_of_getLast? listed)).1
  · exact follows.apart ⟨mapping, by rw [walks],
      by rw [termini, Table.get?_modify_of_ne _ own]⟩ fetches

/-! ### Moves of the walk -/

/-- A deed that ends the walk: the sensors found take the place of the others. -/
theorem ends {c' : Course} {deed : Deed} {walk : Walk} {terminus : Terminus} {m : Monitor μ}
    {hand : List (Completion Purpose)}
    (found : m.walks.get? tid = some walk) (known : m.termini.get? tid = some terminus)
    (mapping : m.mapping = c'.mapping) (ended : c'.stage = .ended) (once : c'.asked.Nodup)
    (blank : ∀ sensor ∈ c'.found, sensor.fail = sensor)
    (fetches : (Scene.fetches ⟨m.finished tid, hand⟩ tid).Perm [])
    (name : terminus.name = start.name) (takesIn : deed.arranges = false)
    (sensors : ∀ sensor, walk.sensors.get? sensor = c'.sensor? sensor) :
    Follows tid start (past ++ [deed]) c' ⟨m.finished tid, hand⟩ := by
  obtain ⟨mapping', idle, known'⟩ := Monitor.finished_own found known
  exact {
    mapping := mapping'.trans mapping
    once := by rw [ended]; simpa [Stage.upcoming] using once
    blank
    fetches := by rw [ended]; exact fetches
    ended := fun _ => idle
    underWay := fun underWay => absurd ended underWay
    known := ⟨_, known', name, fun underWay => absurd ended underWay,
      fun _ => ⟨past, deed, [], rfl, takesIn, fun _ => sensors⟩⟩ }

/-- A walk that waits is at a record that is due. -/
theorem due_of_waiting {walk : Walk} (follows : Follows tid start past c s)
    (found : s.monitor.walks.get? tid = some walk) (waiting : walk.inFlight = false) :
    c.stage = .due walk.next ∧ c.Stands walk := by
  have underWay : c.stage ≠ .ended := fun ended => by cases (follows.ended ended).symm.trans found
  obtain ⟨walk', found', stands⟩ := follows.underWay underWay
  cases found.symm.trans found'
  refine ⟨?_, stands⟩
  have inFlight := stands.inFlight
  have next := stands.next
  rw [waiting] at inFlight
  cases stage : c.stage with
  | due handle => rw [next handle (by rw [stage]; exact List.mem_singleton_self _)]
  | awaiting => rw [stage] at inFlight; cases inFlight
  | ended => exact absurd stage underWay

/-- A request under way is the one that the course awaits, and there is no other. -/
theorem awaiting_of_fetch {key : RequestKey} {handle : UInt32}
    (follows : Follows tid start past c s)
    (fetches : (s.fetches tid).Perm ((key, handle) :: s'.fetches tid)) :
    c.stage = .awaiting key handle ∧ s'.fetches tid = [] := by
  have all := fetches.symm.trans follows.fetches
  cases stage : c.stage with
  | awaiting key' handle' =>
    rw [stage] at all
    obtain ⟨same, rest⟩ := List.cons.inj (List.perm_singleton.mp all)
    cases same
    exact ⟨rfl, rest⟩
  | due => rw [stage] at all; cases all.length_eq
  | ended => rw [stage] at all; cases all.length_eq

/-- The record that comes brings its sensor. -/
theorem noted {m : Monitor μ} {c' : Course} {walk : Walk} {terminus : Terminus} {record : Record}
    (found : m.walks.get? tid = some walk) (known : m.termini.get? tid = some terminus)
    (sensors : ∀ sensor, walk.sensors.get? sensor = c.sensor? sensor)
    (brings : c'.found =
      c.found ++ record.sensor?.toList.map (m.mapping.describe tid terminus.name)) :
    (m.noted tid record).mapping = m.mapping ∧ (m.noted tid record).termini = m.termini ∧
      ∃ sensors, (m.noted tid record).walks.get? tid = some { walk with sensors } ∧
        ∀ sensor, sensors.get? sensor = c'.sensor? sensor := by
  unfold Monitor.noted
  cases described : record.sensor? with
  | none =>
    refine ⟨rfl, rfl, walk.sensors, found, ?_⟩
    intro sensor
    rw [sensors, Course.sensor?, Course.sensor?, brings, described]
    simp
  | some r =>
    rw [described] at brings
    dsimp only
    rw [Monitor.newSensor_eq known]
    refine ⟨rfl, rfl, _, by rw [Table.get?_modify, if_pos rfl, found]; rfl, ?_⟩
    intro sensor
    rw [Table.get?_insert, Course.sensor?_found brings, sensors]

theorem settled_record {m : Monitor μ} {hand : List (Completion Purpose)}
    {completion : Completion Purpose} {handle : UInt32}
    (follows : Follows tid start past c ⟨m, completion :: hand⟩)
    (asks : completion.cookie = .record tid handle) :
    ∃ c', c.step tid start.name (.settled completion) = some c' ∧
      Follows tid start (past ++ [.settled completion]) c' ⟨m.settled completion, hand⟩ := by
  have requests := Scene.requests_settled m hand completion
  have fetches := Scene.fetches_cons tid requests
  obtain ⟨key, cookie, result⟩ := completion
  cases asks
  simp only [Purpose.record?, if_true, Option.map_some, Option.toList_some] at fetches
  obtain ⟨stage, done⟩ := follows.awaiting_of_fetch fetches
  have underWay : c.stage ≠ .ended := by simp [stage]
  obtain ⟨walk, found, stands⟩ := follows.underWay underWay
  obtain ⟨terminus, known, rosters⟩ := follows.known
  have once := follows.once
  have seen := stands.seen
  simp only [stage, Stage.upcoming, List.append_nil] at once seen
  refine ⟨c.answered tid start.name result, by simp [Course.step, stage], ?_⟩
  simp only [Monitor.settled, Monitor.recorded, found, Course.answered] at done ⊢
  cases read : Correlator.understood FetchRecord.parse result with
  | error fault =>
    simp only [read] at done ⊢
    exact ends found known follows.mapping rfl once follows.blank (.of_eq done) rosters.name rfl
      stands.sensors
  | ok answer =>
    obtain ⟨record, next⟩ := answer
    simp only [read] at done ⊢
    let c' (stage : Stage) : Course :=
      { c with
        stage, found := c.found ++ record.sensor?.toList.map (c.mapping.describe tid start.name) }
    have blank (stage : Stage) : ∀ sensor ∈ (c' stage).found, sensor.fail = sensor := by
      refine List.forall_mem_append.mpr ⟨follows.blank, ?_⟩
      intro sensor mem
      obtain ⟨r, _, rfl⟩ := List.mem_map.mp mem
      exact Mapping.describe_fail
    have brings (stage : Stage) : (c' stage).found =
        c.found ++ record.sensor?.toList.map (m.mapping.describe tid terminus.name) := by
      rw [follows.mapping, rosters.name]
    by_cases last : next = 0 ∨ next ∈ c.asked
    · obtain ⟨mapping, termini, sensors, found', sensors'⟩ :=
        noted found known stands.sensors (brings .ended)
      rw [if_pos last]
      rw [if_pos (last.imp_right (seen next).mpr)] at done ⊢
      exact ends found' (termini ▸ known) (mapping.trans follows.mapping) rfl once (blank .ended)
        (.of_eq done) rosters.name rfl sensors'
    · obtain ⟨mapping, termini, sensors, found', sensors'⟩ :=
        noted found known stands.sensors (brings (.due next))
      rw [if_neg last]
      rw [if_neg fun last' => last (last'.imp_right (seen next).mp)] at done ⊢
      exact {
        mapping := mapping.trans follows.mapping
        once := List.nodup_append.mpr ⟨once, List.pairwise_singleton .., fun handle mem _ mem' eq =>
          last (.inr (List.mem_singleton.mp mem' ▸ eq ▸ mem))⟩
        blank := blank (.due next)
        fetches := .of_eq done
        ended := fun ended => by cases ended
        underWay := fun _ => ⟨Walk.follow { walk with sensors } next, by
            rw [Table.get?_modify, if_pos rfl, found']; rfl, {
          inFlight := rfl
          next := fun handle mem => List.eq_of_mem_singleton mem
          seen := fun handle => by
            change Table.contains (Table.insert _ _ _) _ = true ↔ handle ∈ c.asked ++ [next]
            rw [Table.contains_insert, seen, List.mem_append, List.mem_singleton, or_comm]
          sensors := sensors' }⟩
        known := ⟨terminus, termini ▸ known, rosters.name,
          fun _ => rosters.kept underWay, fun ended => by cases ended⟩ }

theorem settled {m : Monitor μ} {hand : List (Completion Purpose)}
    {completion : Completion Purpose}
    (follows : Follows tid start past c ⟨m, completion :: hand⟩) :
    ∃ c', c.step tid start.name (.settled completion) = some c' ∧
      Follows tid start (past ++ [.settled completion]) c' ⟨m.settled completion, hand⟩ := by
  have requests := Scene.requests_settled m hand completion
  have fetches := Scene.fetches_cons tid requests
  cases asks : completion.cookie with
  | reading key =>
    refine ⟨c, by simp only [Course.step, asks], ?_⟩
    rw [asks] at fetches
    have settled : m.settled completion =
        { m with toWatch := m.toWatch.settled key completion.result } := by
      rw [Monitor.settled, asks]
    refine follows.sensed key (·.taken completion.result) ?_ ?_ fetches.symm ?_
      (fun _ => NumericSensor.unread_taken) fun quiet s blank => ?_
    · rw [settled]
    · rw [settled]
    · rw [settled]
      exact Watch.termini_settled
    · rcases quiet _ (List.mem_singleton_self _) with sends | ⟨_, eq, late⟩
      · cases sends
      · cases eq
        rw [late, NumericSensor.taken_timedOut, blank]
  | record tid' handle =>
    by_cases own : tid' = tid
    · exact follows.settled_record (own ▸ asks)
    · refine ⟨c, by simp only [Course.step, asks, if_neg own], follows.apart ?_ ?_⟩
      · rw [Monitor.settled, asks]
        exact Monitor.recorded_agree own
      · rw [asks, Purpose.record?, if_neg own] at fetches
        exact fetches.symm
  | effecter path property =>
    refine ⟨c, by simp only [Course.step, asks], follows.apart ?_ ?_⟩
    · rw [Monitor.settled, asks]
      exact ⟨rfl, rfl, rfl⟩
    · rw [asks] at fetches
      exact fetches.symm

theorem asked {m m' : Monitor μ} {walk : Walk} {key : RequestKey}
    (follows : Follows tid start past c ⟨m, []⟩) (found : m.walks.get? tid = some walk)
    (waiting : walk.inFlight = false)
    (requests : (Scene.requests ⟨m', []⟩).Perm
      ((key, .record tid walk.next) :: Scene.requests ⟨m, []⟩))
    (mapping : m'.mapping = m.mapping) (termini : m'.termini = m.termini)
    (walks : m'.walks = m.walks.modify tid fun w => { w with inFlight := true }) :
    ∃ c', c.step tid start.name (.asked key tid walk.next) = some c' ∧
      Follows tid start (past ++ [.asked key tid walk.next]) c' ⟨m', []⟩ := by
  obtain ⟨stage, stands⟩ := follows.due_of_waiting found waiting
  obtain ⟨terminus, known, rosters⟩ := follows.known
  have fetches := Scene.fetches_cons tid requests
  have none := follows.fetches
  have once := follows.once
  have seen := stands.seen
  rw [stage] at none once seen
  simp only [Purpose.record?, if_true, Option.map_some, Option.toList_some] at fetches
  refine ⟨{ c with stage := .awaiting key walk.next, asked := c.asked ++ [walk.next] },
    by simp [Course.step, Course.ask, stage], ?_⟩
  exact {
    mapping := mapping.trans follows.mapping
    once := (List.append_nil _).symm ▸ once
    blank := follows.blank
    fetches := fetches.trans (none.cons _)
    ended := fun ended => by cases ended
    underWay := fun _ => ⟨{ walk with inFlight := true },
      by rw [walks, Table.get?_modify, if_pos rfl, found]; rfl, {
        inFlight := rfl
        next := List.forall_mem_nil _
        seen := fun handle => (seen handle).trans (by simp [Stage.upcoming])
        sensors := stands.sensors }⟩
    known := ⟨terminus, termini ▸ known, rosters.name,
      fun _ => rosters.kept (by simp [stage]), fun ended => by cases ended⟩ }

theorem unsent {m m' : Monitor μ} {walk : Walk} {fault : TransportFault}
    (follows : Follows tid start past c ⟨m, []⟩) (found : m.walks.get? tid = some walk)
    (waiting : walk.inFlight = false) (requests : m'.pending = m.pending)
    (mapping : m'.mapping = m.mapping) (termini : m'.termini = m.termini)
    (walks : m'.walks = m.walks) :
    ∃ c', c.step tid start.name (.unsent tid walk.next fault) = some c' ∧
      Follows tid start (past ++ [.unsent tid walk.next fault]) c' ⟨m'.finished tid, []⟩ := by
  obtain ⟨stage, stands⟩ := follows.due_of_waiting found waiting
  obtain ⟨terminus, known, rosters⟩ := follows.known
  have none := follows.fetches
  have once := follows.once
  rw [stage] at none once
  refine ⟨{ c with stage := .ended, asked := c.asked ++ [walk.next] },
    by simp [Course.step, Course.ask, stage], ?_⟩
  refine ends (walks ▸ found) (termini ▸ known) (mapping.trans follows.mapping) rfl once
    follows.blank ?_ rosters.name rfl stands.sensors
  have same : Scene.requests ⟨m'.finished tid, []⟩ = Scene.requests ⟨m, []⟩ :=
    Scene.requests_congr (by rw [(Monitor.finished_frame ..).1, requests])
  rwa [Scene.fetches, same]

/-! ### All moves -/

theorem requests_apart (requests : s'.requests.Perm s.requests) :
    (s'.fetches tid).Perm (s.fetches tid) := requests.filterMap _

theorem request_apart {request : RequestKey × Purpose}
    (requests : s'.requests.Perm (request :: s.requests))
    (other : request.2.record? tid = none) : (s'.fetches tid).Perm (s.fetches tid) := by
  have fetches := Scene.fetches_cons tid requests
  rwa [other] at fetches

/-- A move is one of the course, unless it removes the terminus or starts another walk. -/
theorem move (move : Move s deeds s') (follows : Follows tid start past c s)
    (stays : .removed tid ∉ deeds) (goesOn : .begun tid ∉ deeds) :
    ∃ c', c.run tid start.name deeds = some c' ∧ Follows tid start (past ++ deeds) c' s' := by
  obtain ⟨terminus, known, rosters⟩ := follows.known
  cases move with
  | aside alike =>
    exact ⟨c, rfl, follows.apart ⟨alike.mapping, by rw [alike.walks], by rw [alike.termini]⟩
      (requests_apart (.of_eq (Scene.requests_congr alike.pending)))⟩
  | placed unknown =>
    have other : tid ≠ _ := fun eq => by cases unknown.symm.trans (eq ▸ known)
    exact ⟨c, rfl, follows.apart ⟨rfl, rfl, Table.get?_insert_of_ne other⟩ (.refl _)⟩
  | @reached m _ tid' =>
    refine ⟨c, rfl, follows.touched rfl rfl (.refl _) ?_⟩
    intro terminus known rosters
    by_cases own : tid = tid'
    · exact ⟨{ terminus with reachable := true },
        by rw [Monitor.modifyTerminus, Table.get?_modify, if_pos own, ← own, known]; rfl,
        rosters.move rfl (fun _ => rfl) fun _ _ => rfl⟩
    · exact ⟨terminus, (Table.get?_modify_of_ne _ own).trans known,
        rosters.move rfl (fun _ => rfl) fun _ _ => rfl⟩
  | @lost m _ tid' =>
    refine ⟨c, rfl, follows.touched rfl rfl (.refl _) ?_⟩
    intro terminus known rosters
    by_cases own : tid = tid'
    · refine ⟨{ terminus with
          sensors := terminus.sensors.mapValues fun _ s => s.lose, reachable := false },
        by rw [Monitor.modifyTerminus, Table.get?_modify, if_pos own, ← own, known]; rfl,
        rosters.move rfl (fun sensor => ?_) fun quiet => ?_⟩
      · rw [Table.get?_mapValues, Option.map_map]
        rfl
      · rcases quiet _ (List.mem_singleton_self _) with sends | ⟨_, eq, _⟩
        · cases sends
        · cases eq
    · exact ⟨terminus, (Table.get?_modify_of_ne _ own).trans known,
        rosters.move rfl (fun _ => rfl) fun _ _ => rfl⟩
  | @removed m _ tid' =>
    have other : tid ≠ tid' := fun eq => stays (eq ▸ List.mem_singleton_self _)
    exact ⟨c, rfl, follows.apart
      ⟨rfl, Table.get?_erase_of_ne other, Table.get?_erase_of_ne other⟩ (.refl _)⟩
  | @mapped m _ mapping =>
    have moved : c.Rosters start (past ++ [.mapped mapping]) terminus :=
      rosters.move rfl (fun _ => rfl) fun _ _ => rfl
    refine ⟨{ c with mapping }, rfl, {
      mapping := rfl, once := follows.once, blank := follows.blank, fetches := follows.fetches
      ended := follows.ended
      underWay := fun underWay => ?_
      known := ⟨terminus, known, moved.name, moved.kept, moved.found⟩ }⟩
    obtain ⟨walk, found, stands⟩ := follows.underWay underWay
    exact ⟨walk, found, stands.inFlight, stands.next, stands.seen, stands.sensors⟩
  | shared => exact ⟨c, rfl, follows.apart ⟨rfl, rfl, rfl⟩ (.refl _)⟩
  | dropped => exact ⟨c, rfl, follows.apart ⟨rfl, rfl, rfl⟩ (.refl _)⟩
  | renewed =>
    exact ⟨c, rfl, follows.apart ⟨rfl, rfl, rfl⟩
      (requests_apart (.of_eq Scene.requests_renewed))⟩
  | shed pending cookie =>
    exact ⟨c, rfl, follows.apart ⟨rfl, rfl, rfl⟩
      (requests_apart (Scene.requests_shed pending cookie))⟩
  | settled => simpa only [Course.run_single] using follows.settled
  | @begun m _ tid' =>
    have other : tid ≠ tid' := fun eq => goesOn (eq ▸ List.mem_singleton_self _)
    exact ⟨c, rfl, follows.apart ⟨rfl, Table.get?_insert_of_ne other, rfl⟩ (.refl _)⟩
  | strayed unknown =>
    have other : tid ≠ _ := fun eq => by cases unknown.symm.trans (eq ▸ known)
    exact ⟨c, rfl, follows.apart ⟨rfl, Table.get?_erase_of_ne other, rfl⟩ (.refl _)⟩
  | @asked m tid' terminus' walk iid request message known' found waiting free fresh =>
    rw [Course.run_single]
    let m' : Monitor μ :=
      { m.withRequests (m.opened ⟨terminus'.eid, iid⟩ request message (.record tid' walk.next)) with
        walks := m.walks.modify tid' fun w => { w with inFlight := true } }
    have requests := @Scene.requests_opened μ m m' [] _ _ fresh rfl
    by_cases own : tid' = tid
    · subst own
      exact follows.asked found waiting requests rfl rfl rfl
    · exact ⟨c, by rw [Course.step, if_neg own],
        follows.apart ⟨rfl, Table.get?_modify_of_ne _ (Ne.symm own), rfl⟩
          (request_apart requests (if_neg own))⟩
  | @unsent m tid' terminus' walk iid fault known' found waiting free =>
    rw [Course.run_single]
    by_cases own : tid' = tid
    · subst own
      exact follows.unsent found waiting rfl rfl rfl rfl
    · refine ⟨c, by rw [Course.step, if_neg own], follows.apart ?_ ?_⟩
      · have refused : Monitor.AgreeOn tid m (m.withRequests (m.refused terminus'.eid iid)) :=
          ⟨rfl, rfl, rfl⟩
        exact refused.trans (Monitor.finished_agree own)
      · exact requests_apart (.of_eq (Scene.requests_congr (by
          rw [(Monitor.finished_frame ..).1]; rfl)))
  | refused => exact ⟨c, rfl, follows.apart ⟨rfl, rfl, rfl⟩ (.refl _)⟩
  | polled known listed reachable due free fresh =>
    exact ⟨c, rfl, follows.apart ⟨rfl, rfl, rfl⟩
      (request_apart (Scene.requests_opened fresh rfl) rfl)⟩
  | @failed m s terminus' iid known' listed free =>
    have failed : (m.termini.modify s.key.tid fun t =>
          { t with sensors := t.sensors.modify s.key.sensor fun _ => s.fail }) =
        m.termini.modify s.key.tid fun t =>
          { t with sensors := t.sensors.modify s.key.sensor (·.fail) } := by
      refine Table.modify_congr ?_
      intro terminus'' known''
      cases known'.symm.trans known''
      have same : (terminus'.sensors.modify s.key.sensor fun _ => s.fail) =
          terminus'.sensors.modify s.key.sensor (·.fail) :=
        Table.modify_congr fun s' listed' => by cases listed.symm.trans listed'; rfl
      rw [same]
    exact ⟨c, rfl, follows.sensed s.key (·.fail) rfl rfl (.refl _) failed
      (fun _ => rfl) fun _ _ blank => blank⟩
  | set free fresh =>
    exact ⟨c, rfl, follows.apart ⟨rfl, rfl, rfl⟩
      (request_apart (Scene.requests_opened fresh rfl) rfl)⟩

/-- Moves are those of the course, unless they remove the terminus or start another
walk. -/
theorem moves (moves : Moves s deeds s') (follows : Follows tid start past c s)
    (stays : .removed tid ∉ deeds) (goesOn : .begun tid ∉ deeds) :
    ∃ c', c.run tid start.name deeds = some c' ∧ Follows tid start (past ++ deeds) c' s' := by
  induction moves generalizing past c with
  | done => exact ⟨c, rfl, by rwa [List.append_nil]⟩
  | step move rest ih =>
    rw [List.mem_append, not_or] at stays goesOn
    obtain ⟨c₁, ran, follows₁⟩ := follows.move move stays.1 goesOn.1
    obtain ⟨c₂, ran', follows₂⟩ := ih follows₁ stays.2 goesOn.2
    exact ⟨c₂, (Course.run_append ran).trans ran', by rwa [← List.append_assoc]⟩

/-- A walk that goes on needs no past. -/
theorem renew (follows : Follows tid start past c s) (underWay : c.stage ≠ .ended) :
    Follows tid start [] c s where
  mapping := follows.mapping
  once := follows.once
  blank := follows.blank
  fetches := follows.fetches
  ended := follows.ended
  underWay := follows.underWay
  known := by
    obtain ⟨terminus, known, rosters⟩ := follows.known
    exact ⟨terminus, known, rosters.name, rosters.kept, fun ended => absurd ended underWay⟩

theorem isDiscovering_iff (follows : Follows tid start past c s) :
    s.monitor.isDiscovering tid = true ↔ c.stage ≠ .ended := by
  rw [Monitor.isDiscovering, Table.contains_iff]
  constructor
  · rintro ⟨walk, found⟩ ended
    cases (follows.ended ended).symm.trans found
  · intro underWay
    obtain ⟨walk, found, _⟩ := follows.underWay underWay
    exact ⟨walk, found⟩

/-- The walk that starts is at the first record. -/
theorem begin {m : Monitor μ} {terminus : Terminus} (known : m.termini.get? tid = some terminus)
    (none : ∀ key handle, ¬ m.IsPending key (.record tid handle)) :
    Follows tid terminus [] { mapping := m.mapping }
      ⟨{ m with walks := m.walks.insert tid {} }, []⟩ where
  mapping := rfl
  once := List.pairwise_singleton ..
  blank := List.forall_mem_nil _
  fetches := by
    refine .of_eq (List.eq_nil_iff_forall_not_mem.mpr ?_)
    rintro ⟨key, handle⟩ mem
    exact none key handle (Scene.mem_fetches.mp mem)
  ended := fun ended => by cases ended
  underWay := fun _ => ⟨{}, Table.get?_insert_self, {
    inFlight := rfl
    next := fun handle mem => List.eq_of_mem_singleton mem
    seen := fun handle => by
      rw [Table.contains_insert, Stage.upcoming, List.nil_append, List.mem_singleton]
      exact or_iff_left Bool.noConfusion
    sensors := fun _ => rfl }⟩
  known := ⟨terminus, known, rfl, fun _ _ => rfl, fun ended => by cases ended⟩

end Follows

/-! ### Walks -/

/-- A walk of a terminus that is where its course stands, as it is seen between turns. -/
structure Monitor.OnCourse (tid : Tid) (start : Terminus) (c : Course) (m : Monitor μ) : Prop where
  /-- No record was asked for twice. -/
  once : c.asked.Nodup
  underWay : m.isDiscovering tid = true ↔ c.stage ≠ .ended
  /-- One request at a time is under way. -/
  pending : ∀ key handle,
    m.IsPending key (.record tid handle) ↔ c.stage = .awaiting key handle
  /-- Readings apart, the terminus keeps its sensors until the walk is over; then it has
  exactly those found. -/
  sensors : ∃ terminus, m.termini.get? tid = some terminus ∧ ∀ sensor,
    if c.stage = .ended then terminus.sensors.get? sensor = c.sensor? sensor
    else (terminus.sensors.get? sensor).map (·.unread) =
      (start.sensors.get? sensor).map (·.unread)

namespace Follows

variable {tid : Tid} {start : Terminus} {past : List Deed} {c : Course} {m : Monitor μ}

/-- After the turn that ends a walk the sensors are those found: nothing else that the
turn does touches them. -/
theorem onCourse [UpdateManager μ] {t : Turn μ} {earlier : List Deed}
    (follows : Follows tid start past c ⟨t.after m, []⟩) (turn : t.deeds m = earlier ++ past) :
    Monitor.OnCourse tid start c (t.after m) where
  once := (List.nodup_append.mp follows.once).1
  underWay := follows.isDiscovering_iff
  pending key handle := by
    rw [← Scene.mem_fetches, follows.fetches.mem_iff]
    cases c.stage <;> simp [Stage.fetch, eq_comm]
  sensors := by
    obtain ⟨terminus, known, rosters⟩ := follows.known
    refine ⟨terminus, known, ?_⟩
    intro sensor
    split
    next ended =>
      obtain ⟨before, deed, since, rfl, takesIn, sensors⟩ := rosters.found ended
      rw [← List.append_assoc] at turn
      exact sensors (Turn.calm_after turn takesIn) sensor
    next underWay => exact rosters.kept underWay sensor

variable [UpdateManager μ]

/-- A turn during a walk is one of the course, unless it removes the terminus. -/
theorem turn (follows : Follows tid start [] c ⟨m, []⟩) (underWay : c.stage ≠ .ended)
    (keyed : m.Keyed) (t : Turn μ) (stays : .removed tid ∉ t.deeds m) :
    ∃ c', c.run tid start.name (t.deeds m) = some c' ∧
      Follows tid start (t.deeds m) c' ⟨t.after m, []⟩ := by
  refine follows.moves (Turn.moves keyed t) stays ?_
  intro begins
  cases (Turn.begun_idle begins).symm.trans (follows.isDiscovering_iff.mpr underWay)

/-- Turns are those of the course, as long as the walk is under way before each. -/
theorem run {t : Turn μ} {earlier : List Deed} {during : List (Turn μ)}
    (follows : Follows tid start past c ⟨t.after m, []⟩) (turn : t.deeds m = earlier ++ past)
    (keyed : (t.after m).Keyed) (stays : .removed tid ∉ Turn.trace during (t.after m))
    (goesOn : ∀ before, before <+: during → before ≠ during →
      (Turn.run before (t.after m)).isDiscovering tid = true) :
    ∃ c', c.run tid start.name (Turn.trace during (t.after m)) = some c' ∧
      Monitor.OnCourse tid start c' (Turn.run during (t.after m)) := by
  induction during generalizing t m past earlier c with
  | nil => exact ⟨c, rfl, follows.onCourse turn⟩
  | cons t' rest ih =>
    have underWay : c.stage ≠ .ended :=
      follows.isDiscovering_iff.mp (goesOn [] List.nil_prefix (List.cons_ne_nil t' rest).symm)
    rw [Turn.trace, List.mem_append, not_or] at stays
    obtain ⟨c₁, ran, follows₁⟩ := (follows.renew underWay).turn underWay keyed t' stays.1
    obtain ⟨c₂, ran', onCourse⟩ := ih follows₁ (List.nil_append _).symm
      (Turn.keyed_run keyed [t']) stays.2 fun before pre ne =>
        goesOn (t' :: before) (List.cons_prefix_cons.mpr ⟨rfl, pre⟩) fun eq =>
          ne (List.cons.inj eq).2
    exact ⟨c₂, (Course.run_append ran).trans ran', onCourse⟩

end Follows

/-- The attempts at requests for records of a terminus, among those of all walks: they go to its
endpoint, and ask for the records that the deeds tell of. -/
theorem Deed.requests_of_fetchedBy {tid : Tid} {eid : Eid} {deeds : List Deed} {tries : List Try}
    (fetched : List.Forall₂ (FetchedBy fun tid' eid' => tid' = tid → eid' = eid)
      (deeds.filter fetches) tries) :
    ∃ requests : List Try, requests.Sublist tries ∧
      requests.map (fun request => (request.eid, FetchRecord.asked? request.message)) =
        (deeds.filterMap (record? tid)).map fun handle => (eid, some handle) := by
  have same : (deeds.filter fetches).filterMap (record? tid) = deeds.filterMap (record? tid) := by
    rw [List.filterMap_filter]
    refine List.filterMap_congr ?_
    intro deed _
    cases deed <;> rfl
  rw [← same]
  generalize deeds.filter fetches = deeds at fetched
  induction fetched with
  | nil => exact ⟨[], .slnil, rfl⟩
  | @cons deed attempt rest later first _ ih =>
    obtain ⟨requests, among, asks⟩ := ih
    have own {handle : UInt32} (told : deed.record? tid = some handle)
        (one : (attempt.eid, FetchRecord.asked? attempt.message) = (eid, some handle)) :
        ∃ requests : List Try, requests.Sublist (attempt :: later) ∧
          requests.map (fun request => (request.eid, FetchRecord.asked? request.message)) =
            ((deed :: rest).filterMap (record? tid)).map fun handle => (eid, some handle) := by
      refine ⟨attempt :: requests, among.cons_cons attempt, ?_⟩
      rw [List.filterMap_cons_some told, List.map_cons, List.map_cons, one, asks]
    have other (told : deed.record? tid = none) :
        ∃ requests : List Try, requests.Sublist (attempt :: later) ∧
          requests.map (fun request => (request.eid, FetchRecord.asked? request.message)) =
            ((deed :: rest).filterMap (record? tid)).map fun handle => (eid, some handle) :=
      ⟨requests, among.cons attempt, by rw [List.filterMap_cons_none told, asks]⟩
    cases first with
    | @asked key tid' handle message known numbered reads =>
      by_cases same : tid' = tid
      · exact own (if_pos same) (by rw [known same, reads])
      · exact other (if_neg same)
    | @unsent tid' handle fault eid' message known reads =>
      by_cases same : tid' = tid
      · exact own (if_pos same) (by rw [known same, reads])
      · exact other (if_neg same)

/-- A walk takes its course, whatever peers answer and whatever else is done meanwhile,
as long as its terminus stays. The turns go on at most until the one that ends the walk. Each
request for a record that the deeds tell of has its attempt, in their order; those of the walk
go to the terminus and ask for the records of the course. -/
theorem walk_follows_course [UpdateManager μ] (ids : Pools) (policy : RetryPolicy)
    (interval now : Nat) (turns during : List (Turn μ)) (tid : Tid) (link : Link)
    {terminus : Terminus} :
    let m : Monitor μ := Turn.run turns (.startWith ids policy interval now)
    let discover : Turn μ := { operation := .discover tid, link }
    let walk := discover :: during
    m.termini.get? tid = some terminus → m.isDiscovering tid = false →
      (∀ key handle, ¬ m.IsPending key (.record tid handle)) →
      .removed tid ∉ Turn.trace walk m →
      (∀ before, before <+: during → before ≠ during →
        (Turn.run (discover :: before) m).isDiscovering tid = true) →
      ∃ (since : List Deed) (course : Course) (requests : List Try),
        Turn.trace walk m = .begun tid :: since ∧
        Course.run tid terminus.name { mapping := m.mapping } since = some course ∧
        course.asked.length ≤ UInt32.size ∧
        (Turn.run walk m).OnCourse tid terminus course ∧
        List.Forall₂ (Deed.FetchedBy fun tid' eid => tid' = tid → eid = terminus.eid)
          (since.filter Deed.fetches) (Turn.fetched walk m) ∧
        (Turn.fetched walk m).Sublist (Turn.history walk m).tries ∧
        requests.Sublist (Turn.fetched walk m) ∧
        requests.map (fun request => (request.eid, FetchRecord.asked? request.message)) =
          course.asked.map fun handle => (terminus.eid, some handle) := by
  intro m discover walk known idle none stays goesOn
  have contains : m.termini.contains tid = true := Table.contains_iff.mpr ⟨_, known⟩
  have keyed : m.Keyed := Turn.keyed_run (Monitor.keyed_startWith ..) turns
  have home : m.home tid = some terminus.eid := by rw [Monitor.home, known]; rfl
  have fetched := Turn.fetched_match keyed home stays
  have deeds : discover.deeds m =
      .begun tid :: m.driven link [] (Operation.opening (.discover tid)) := by
    simp [discover, Turn.deeds, Operation.deeds, Operation.arranged, Operation.ticked, contains,
      idle]
  have asks : Moves ⟨{ m with walks := m.walks.insert tid {} }, []⟩
      (m.driven link [] (Operation.opening (.discover tid))) ⟨discover.after m, []⟩ :=
    Monitor.ends_discover_idle contains idle
  rw [Turn.trace, deeds, List.cons_append] at stays fetched
  rw [List.mem_cons, List.mem_append, not_or, not_or] at stays
  obtain ⟨-, stays, staysLater⟩ := stays
  obtain ⟨c₁, ran, follows₁⟩ := (Follows.begin known none).moves asks stays fun begins => by
    cases Monitor.arranges_of_mem_driven begins
  have turn : discover.deeds m =
      [.begun tid] ++ ([] ++ m.driven link [] (Operation.opening (.discover tid))) := deeds
  obtain ⟨c₂, ran', onCourse⟩ :=
    follows₁.run turn (Turn.keyed_run keyed [discover]) staysLater goesOn
  have runs := (Course.run_append ran).trans ran'
  have asked := Course.asked_run runs
  obtain ⟨requests, among, reads⟩ := Deed.requests_of_fetchedBy fetched
  refine ⟨_, c₂, requests, by rw [Turn.trace, deeds, List.cons_append], runs, ?_, onCourse,
    fetched, Turn.fetched_sublist walk m, among, ?_⟩
  · have distinct : (c₂.asked.map UInt32.toNat).Nodup :=
      List.pairwise_map.mpr (onCourse.once.imp fun ne eq => ne (UInt32.toNat_inj.mp eq))
    have bounded : c₂.asked.map UInt32.toNat ⊆ List.range UInt32.size := by
      intro number mem
      obtain ⟨handle, _, rfl⟩ := List.mem_map.mp mem
      exact List.mem_range.mpr handle.toNat_lt
    simpa using distinct.length_le_of_subset bounded
  · rw [asked]
    exact reads

/-- The answers to a walk: a record of a sensor with another after it, and a second record
of the same sensor with none. -/
def twoRecords : List (Turn Scripted) :=
  [{ operation := .message 8 (FetchRecord.answering 0 2 (.temperature 1)) },
    { operation := .message 8 (FetchRecord.answering 0 0 (.temperature 1)) }]

theorem walk_follows_course_twoRecords :
    let m : Monitor Scripted := Turn.run [{ operation := .add 1 8 "Rack" }] (.startWith {} {} 250 0)
    let walk : List (Turn Scripted) := { operation := .discover 1 } :: twoRecords
    ∃ terminus, m.termini.get? 1 = some terminus ∧
      ∃ (since : List Deed) (course : Course) (requests : List Try),
        Turn.trace walk m = .begun 1 :: since ∧
        Course.run 1 terminus.name { mapping := m.mapping } since = some course ∧
        course.asked.length ≤ UInt32.size ∧ (Turn.run walk m).OnCourse 1 terminus course ∧
        List.Forall₂ (Deed.FetchedBy fun tid' eid => tid' = 1 → eid = terminus.eid)
          (since.filter Deed.fetches) (Turn.fetched walk m) ∧
        (Turn.fetched walk m).Sublist (Turn.history walk m).tries ∧
        requests.Sublist (Turn.fetched walk m) ∧
        requests.map (fun request => (request.eid, FetchRecord.asked? request.message)) =
          course.asked.map fun handle => (terminus.eid, some handle) := by
  have registered : ((Turn.run [{ operation := .add 1 8 "Rack" }]
      (.startWith {} {} 250 0) : Monitor Scripted).termini.get? 1).isSome = true := by
    decide +kernel
  obtain ⟨terminus, known⟩ := Option.isSome_iff_exists.mp registered
  have law := @walk_follows_course Scripted _ {} {} 250 0 [{ operation := .add 1 8 "Rack" }]
    twoRecords 1 Link.reliable terminus
  dsimp only at law ⊢
  refine ⟨terminus, known, law known (by decide +kernel) ?quiet ?stays ?goesOn⟩
  case quiet =>
    rintro key handle ⟨p, pending, _⟩
    have none : (Turn.run [{ operation := .add 1 8 "Rack" }]
        (.startWith {} {} 250 0) : Monitor Scripted).pending.entries.length = 0 := by
      decide +kernel
    rw [← Table.mem_entries_iff, List.length_eq_zero_iff.mp none] at pending
    cases pending
  case stays =>
    intro removed
    have none : ((Turn.trace ({ operation := .discover 1 } :: twoRecords)
        (Turn.run [{ operation := .add 1 8 "Rack" }] (.startWith {} {} 250 0))).all
          fun | .removed _ => false | _ => true) = true := by
      decide +kernel
    cases List.all_eq_true.mp none _ removed
  case goesOn =>
    intro before pre ne
    rcases List.prefix_cons_iff.mp pre with rfl | ⟨rest, rfl, one⟩
    · decide +kernel
    · rcases List.prefix_cons_iff.mp one with rfl | ⟨rest, rfl, none⟩
      · decide +kernel
      · exact absurd (by rw [List.prefix_nil.mp none]; rfl) ne

end TerminusMonitor
