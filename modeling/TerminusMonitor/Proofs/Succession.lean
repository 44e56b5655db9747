import Mathlib.Data.List.Induction
import TerminusMonitor.Proofs.Placement
import TerminusMonitor.Proofs.Walk

/-!
Walks of a terminus, one after the other.

A request for a record tells its terminus and its handle, and not the walk that sent it.
The walk ends when the terminus is removed, and the request stays pending.

* `Scene.Fetching.move`: a request that is under way was sent by the walk that is under
  way, or its terminus was removed since and no walk is;
* `record_outcome_own`: so it is in every run in which the last walk was started without
  such a request;
* `dropped_walk_answered`: what comes of a walk that is started with one.
-/

namespace TerminusMonitor

variable {μ : Type} {m m' : Monitor μ} {tid : Tid}

/-! ### Requests and walks -/

namespace Monitor

/-- A request for a record, after what was done so far: since it was sent no walk was
started, and its outcome has not come. The walk that sent it is under way and awaits its
record, or the terminus was removed and no walk is under way. -/
def SentByWalk (m : Monitor μ) (tid : Tid) (past : List Deed) (key : RequestKey)
    (handle : UInt32) : Prop :=
  ∃ earlier since, past = earlier ++ .asked key tid handle :: since ∧ .begun tid ∉ since ∧
    (∀ completion, .settled completion ∈ since → completion.key ≠ key) ∧
    ((.removed tid ∈ since ∧ m.isDiscovering tid = false) ∨
      (.removed tid ∉ since ∧ ∃ walk, m.walks.get? tid = some walk ∧
        walk.inFlight = true ∧ walk.next = handle))

theorem SentByWalk.later {past deeds : List Deed} {key : RequestKey} {handle : UInt32}
    (sent : m.SentByWalk tid past key handle) (begins : .begun tid ∉ deeds)
    (unsettled : ∀ completion, .settled completion ∈ deeds → completion.key ≠ key)
    (walk : (.removed tid ∈ deeds ∧ m'.walks.get? tid = none) ∨
      (.removed tid ∉ deeds ∧ m'.walks.get? tid = m.walks.get? tid)) :
    m'.SentByWalk tid (past ++ deeds) key handle := by
  obtain ⟨earlier, since, rfl, begins', unsettled', standing⟩ := sent
  refine ⟨earlier, since ++ deeds, by simp, ?_, ?_, ?_⟩
  · rw [List.mem_append, not_or]
    exact ⟨begins', begins⟩
  · intro completion mem
    rcases List.mem_append.mp mem with before | now
    · exact unsettled' completion before
    · exact unsettled completion now
  · rcases walk with ⟨removed, none⟩ | ⟨stays, same⟩
    · exact .inl ⟨List.mem_append_right _ removed, Table.contains_eq_false_iff.mpr none⟩
    · rcases standing with ⟨removed, idle⟩ | ⟨stays', walk⟩
      · refine .inl ⟨List.mem_append_left _ removed, ?_⟩
        rwa [isDiscovering, Table.contains, same]
      · exact .inr ⟨by simp [stays, stays'], same ▸ walk⟩

/-- The outcome of a request for something else does not concern a walk. -/
theorem walk_settled {completion : Completion Purpose}
    (other : completion.cookie.record? tid = none) :
    (m.settled completion).walks.get? tid = m.walks.get? tid := by
  obtain ⟨key, cookie, result⟩ := completion
  cases cookie with
  | reading | effecter => rfl
  | record tid' handle =>
    refine (recorded_agree fun same => ?_).walk
    simp [Purpose.record?, same] at other

/-- No outcome starts a walk. -/
theorem idle_settled {completion : Completion Purpose} (idle : m.walks.get? tid = none) :
    (m.settled completion).walks.get? tid = none := by
  cases asks : completion.cookie.record? tid with
  | none => rw [walk_settled asks, idle]
  | some handle =>
    obtain ⟨key, cookie, result⟩ := completion
    cases cookie with
    | reading | effecter => cases asks
    | record tid' handle' =>
      have own : tid' = tid := by
        by_contra other
        simp [Purpose.record?, other] at asks
      simp only [settled, recorded, own, idle]

end Monitor

namespace Deed

/-- A terminus that is not removed stays known. -/
theorem known_of_stays {home : Option Eid} {deeds : List Deed} (known : home.isSome = true)
    (stays : .removed tid ∉ deeds) : (deeds.foldl (rehome tid) home).isSome = true := by
  induction deeds generalizing home with
  | nil => exact known
  | cons deed rest ih =>
    rw [List.mem_cons, not_or] at stays
    refine ih ?_ stays.2
    cases deed with
    | placed tid' eid =>
      simp only [rehome]
      split
      · rfl
      · exact known
    | removed tid' =>
      have other : tid' ≠ tid := fun same => stays.1 (same ▸ rfl)
      rwa [rehome, if_neg other]
    | _ => exact known

end Deed

namespace Scene

variable {s s' : Scene μ} {past deeds : List Deed}

/-- One request for a record at a time is under way, sent by the walk that is under way
unless the terminus was removed since. -/
structure Fetching (tid : Tid) (past : List Deed) (s : Scene μ) : Prop where
  few : (s.fetches tid).length ≤ 1
  known : s.monitor.isDiscovering tid = true → (s.monitor.home tid).isSome = true
  own : ∀ {key handle}, (key, handle) ∈ s.fetches tid →
    s.monitor.SentByWalk tid past key handle

theorem key_of_mem_fetches {key : RequestKey} {handle : UInt32}
    (mem : (key, handle) ∈ s.fetches tid) : key ∈ s.requests.map Prod.fst := by
  obtain ⟨request, listed, asks⟩ := List.mem_filterMap.mp mem
  obtain ⟨_, _, eq⟩ := Option.map_eq_some_iff.mp asks
  exact List.mem_map.mpr ⟨request, listed, congrArg Prod.fst eq⟩

namespace Fetching

/-- Without requests for records there is nothing to be said about them. -/
theorem of_none (none : s.fetches tid = [])
    (known : s.monitor.isDiscovering tid = true → (s.monitor.home tid).isSome = true) :
    Fetching tid past s where
  few := by simp [none]
  known := known
  own mem := by rw [none] at mem; cases mem

/-- A walk that waits has no request under way. -/
theorem none_of_waiting {walk : Walk} (start : Fetching tid past s)
    (found : s.monitor.walks.get? tid = some walk) (waiting : walk.inFlight = false) :
    s.fetches tid = [] := by
  refine List.eq_nil_iff_forall_not_mem.mpr ?_
  rintro ⟨key, handle⟩ mem
  obtain ⟨_, _, _, _, _, standing⟩ := start.own mem
  rcases standing with ⟨_, idle⟩ | ⟨_, walk', found', inFlight, _⟩
  · cases (Table.contains_eq_false_iff.mp idle).symm.trans found
  · cases found.symm.trans found'
    cases waiting.symm.trans inFlight

/-- A move that concerns neither the walk nor its requests. -/
theorem kept (start : Fetching tid past s) (move : Move s deeds s')
    (begins : .begun tid ∉ deeds) (stays : .removed tid ∉ deeds)
    (fetches : (s'.fetches tid).Perm (s.fetches tid))
    (walk : s'.monitor.walks.get? tid = s.monitor.walks.get? tid)
    (unsettled : ∀ completion handle, .settled completion ∈ deeds →
      (completion.key, handle) ∉ s'.fetches tid) :
    Fetching tid (past ++ deeds) s' where
  few := fetches.length_eq ▸ start.few
  known underWay := by
    rw [move.home]
    refine Deed.known_of_stays (start.known ?_) stays
    rwa [Monitor.isDiscovering, Table.contains, ← walk]
  own {key handle} mem := by
    refine (start.own (fetches.mem_iff.mp mem)).later begins ?_ (.inr ⟨stays, walk⟩)
    rintro completion settled rfl
    exact unsettled completion handle settled mem

/-- A move that leaves requests and walks alone. -/
theorem still (start : Fetching tid past s) (move : Move s deeds s')
    (begins : .begun tid ∉ deeds) (stays : .removed tid ∉ deeds)
    (requests : s'.requests.Perm s.requests)
    (walk : s'.monitor.walks.get? tid = s.monitor.walks.get? tid)
    (unheard : ∀ completion, .settled completion ∉ deeds) : Fetching tid (past ++ deeds) s' :=
  start.kept move begins stays (requests.filterMap _) walk
    fun completion _ settled => absurd settled (unheard completion)

/-- The outcome of a request for something else. -/
theorem settled_other {hand : List (Completion Purpose)} {completion : Completion Purpose}
    (start : Fetching tid past ⟨m, completion :: hand⟩) (sent : Sent past ⟨m, completion :: hand⟩)
    (other : completion.cookie.record? tid = none) :
    Fetching tid (past ++ [.settled completion]) ⟨m.settled completion, hand⟩ := by
  have requests := requests_settled m hand completion
  have fetches := fetches_cons tid requests
  rw [other] at fetches
  obtain ⟨done, _⟩ := List.nodup_cons.mp ((requests.map Prod.fst).nodup_iff.mp sent.keys)
  refine start.kept .settled (by simp) (by simp) fetches.symm (Monitor.walk_settled other) ?_
  intro completion' handle settled mem
  cases List.mem_singleton.mp settled
  exact done (key_of_mem_fetches mem)

/-- The outcome of the request under way. -/
theorem settled_own {hand : List (Completion Purpose)} {completion : Completion Purpose}
    {handle : UInt32} (start : Fetching tid past ⟨m, completion :: hand⟩)
    (own : completion.cookie.record? tid = some handle) :
    Fetching tid (past ++ [.settled completion]) ⟨m.settled completion, hand⟩ := by
  have fetches := fetches_cons tid (requests_settled m hand completion)
  rw [own] at fetches
  have few := start.few
  rw [fetches.length_eq] at few
  refine of_none (List.eq_nil_of_length_eq_zero (by simpa using few)) ?_
  intro underWay
  have known : (m.home tid).isSome = true := by
    refine start.known (Table.contains_iff.mpr (Option.ne_none_iff_exists'.mp fun idle => ?_))
    rw [Monitor.isDiscovering, Table.contains, Monitor.idle_settled idle] at underWay
    cases underWay
  change ((m.settled completion).home tid).isSome = true
  rwa [Monitor.home_settled]

/-- A walk that waits asks for its next record. -/
theorem asked {walk : Walk} {key : RequestKey} {request : RequestKey × Purpose}
    (start : Fetching tid past ⟨m, []⟩)
    (found : m.walks.get? tid = some walk) (waiting : walk.inFlight = false)
    (requests : (Scene.requests ⟨m', []⟩).Perm (request :: Scene.requests ⟨m, []⟩))
    (asks : request = (key, .record tid walk.next)) (termini : m'.termini = m.termini)
    (walks : m'.walks = m.walks.modify tid fun w => { w with inFlight := true }) :
    Fetching tid (past ++ [.asked key tid walk.next]) ⟨m', []⟩ := by
  subst asks
  have fetches := fetches_cons tid requests
  simp only [Purpose.record?, if_true, Option.map_some, Option.toList_some,
    start.none_of_waiting found waiting, List.append_nil] at fetches
  constructor
  · exact (congrArg (· ≤ 1) fetches.length_eq).mpr (Nat.le_refl 1)
  · intro _
    have same : m'.home tid = m.home tid := by rw [Monitor.home, termini, Monitor.home]
    exact same ▸ start.known (Table.contains_iff.mpr ⟨walk, found⟩)
  · intro key' handle mem
    cases List.mem_singleton.mp (fetches.mem_iff.mp mem)
    refine ⟨past, [], rfl, List.not_mem_nil, (by simp), .inr ⟨List.not_mem_nil, ?_⟩⟩
    exact ⟨{ walk with inFlight := true },
      by rw [walks, Table.get?_modify, if_pos rfl, found]; rfl, rfl, rfl⟩

/-- A walk ends whose record cannot be asked for. -/
theorem unsent {walk : Walk} {hand : List (Completion Purpose)} {deeds : List Deed}
    (start : Fetching tid past ⟨m, hand⟩) (found : m.walks.get? tid = some walk)
    (waiting : walk.inFlight = false) (requests : m'.pending = m.pending) :
    Fetching tid (past ++ deeds) ⟨m'.finished tid, hand⟩ := by
  have same : Scene.requests ⟨m'.finished tid, hand⟩ = Scene.requests ⟨m, hand⟩ :=
    Scene.requests_congr (by rw [(Monitor.finished_frame ..).1, requests])
  refine of_none ?_ ?_
  · rw [Scene.fetches, same]
    exact start.none_of_waiting found waiting
  · intro underWay
    rw [Monitor.isDiscovering, Table.contains, Monitor.walks_finished, if_pos rfl] at underWay
    cases underWay

/-- A move keeps requests and walks together, unless it starts a walk. -/
theorem move (step : Move s deeds s') (sent : s.Sent past) (start : Fetching tid past s)
    (begins : .begun tid ∉ deeds) : Fetching tid (past ++ deeds) s' := by
  have move := step
  cases step with
  | aside alike =>
    exact start.still move begins (by simp) (.of_eq (requests_congr alike.pending))
      (by rw [alike.walks]) (by simp)
  | placed => exact start.still move begins (by simp) (.refl _) rfl (by simp)
  | reached => exact start.still move begins (by simp) (.refl _) rfl (by simp)
  | lost => exact start.still move begins (by simp) (.refl _) rfl (by simp)
  | @removed m hand tid' terminus inventory known =>
    by_cases own : tid' = tid
    · subst own
      have gone : (m.walks.erase tid').get? tid' = none := Table.get?_erase_self
      constructor
      · exact start.few
      · intro underWay
        rw [Monitor.isDiscovering, Table.contains, gone] at underWay
        cases underWay
      · intro key handle mem
        exact (start.own mem).later begins (by simp) (.inl ⟨List.mem_singleton_self _, gone⟩)
    · exact start.still move begins (by simpa using Ne.symm own) (.refl _)
        (Table.get?_erase_of_ne (Ne.symm own)) (by simp)
  | mapped => exact start.still move begins (by simp) (.refl _) rfl (by simp)
  | shared => exact start.still move begins (by simp) (.refl _) rfl (by simp)
  | dropped => exact start.still move begins (by simp) (.refl _) rfl (by simp)
  | renewed => exact start.still move begins (by simp) (.of_eq requests_renewed) rfl (by simp)
  | shed pending cookie =>
    exact start.still move begins (by simp) (requests_shed pending cookie) rfl (by simp)
  | @settled m hand completion =>
    cases asks : completion.cookie.record? tid with
    | none => exact start.settled_other sent asks
    | some handle => exact start.settled_own asks
  | @begun m hand tid' =>
    have other : tid ≠ tid' := fun same => begins (same ▸ List.mem_singleton_self _)
    exact start.still move begins (by simp) (.refl _) (Table.get?_insert_of_ne other) (by simp)
  | @strayed m hand tid' unknown =>
    refine start.still move begins (by simp) (.refl _) ?_ (by simp)
    by_cases own : tid = tid'
    · subst own
      have idle : m.isDiscovering tid = false := by
        by_contra underWay
        have known := start.known (Bool.not_eq_false _ ▸ underWay)
        rw [Monitor.home, unknown] at known
        cases known
      exact Table.get?_erase_self.trans (Table.contains_eq_false_iff.mp idle).symm
    · exact Table.get?_erase_of_ne own
  | @asked m tid' terminus walk iid request message known found waiting free fresh =>
    by_cases own : tid' = tid
    · subst own
      exact start.asked found waiting (requests_opened fresh rfl) rfl rfl rfl
    · exact start.kept move begins (by simp)
        (Follows.request_apart (requests_opened fresh rfl) (if_neg own))
        (Table.get?_modify_of_ne _ (Ne.symm own)) (by simp)
  | @unsent m tid' terminus walk iid fault known found waiting free =>
    by_cases own : tid' = tid
    · subst own
      exact start.unsent found waiting rfl
    · refine start.still move begins (by simp) (.of_eq (requests_congr ?_)) ?_ (by simp)
      · rw [(Monitor.finished_frame ..).1]
        rfl
      · rw [Monitor.walks_finished, if_neg (Ne.symm own)]
        rfl
  | refused => exact start.still move begins (by simp) (.refl _) rfl (by simp)
  | polled known listed reachable due free fresh =>
    exact start.kept move begins (by simp)
      (Follows.request_apart (requests_opened fresh rfl) rfl) rfl (by simp)
  | failed => exact start.still move begins (by simp) (.refl _) rfl (by simp)
  | set free fresh =>
    exact start.kept move begins (by simp)
      (Follows.request_apart (requests_opened fresh rfl) rfl) rfl (by simp)

theorem moves (moves : Moves s deeds s') (sent : s.Sent past) (start : Fetching tid past s)
    (begins : .begun tid ∉ deeds) : Fetching tid (past ++ deeds) s' := by
  induction moves generalizing past with
  | done => rwa [List.append_nil]
  | step move _ ih =>
    rw [List.mem_append, not_or] at begins
    rw [← List.append_assoc]
    exact ih (sent.move move) (start.move move sent begins.1) begins.2

/-- A walk that is started without a request for a record has none. -/
theorem begin (known : m.termini.contains tid = true)
    (none : ∀ key handle, ¬ m.IsPending key (.record tid handle)) :
    Fetching tid past ⟨{ m with walks := m.walks.insert tid {} }, []⟩ := by
  refine of_none ?_ fun _ => ?_
  · refine List.eq_nil_iff_forall_not_mem.mpr ?_
    rintro ⟨key, handle⟩ mem
    exact none key handle (mem_fetches.mp mem)
  · obtain ⟨terminus, found⟩ := Table.contains_iff.mp known
    simp [Monitor.home, found]

/-- At the start nothing is under way. -/
theorem startWith (ids : Pools) (policy : RetryPolicy) (interval now : Nat) :
    Fetching tid [] (⟨.startWith ids policy interval now, []⟩ : Scene μ) :=
  of_none rfl Bool.noConfusion

end Fetching

end Scene

/-! ### Runs -/

/-- The last walk of a terminus, if there was one, was started when no request for a
record of the terminus was pending. -/
def Turn.LastWalkAlone [UpdateManager μ] (tid : Tid) (turns : List (Turn μ)) (m : Monitor μ) :
    Prop :=
  ∀ before t rest, turns = before ++ t :: rest → .begun tid ∈ t.deeds (run before m) →
    .begun tid ∉ trace rest (run (before ++ [t]) m) →
      ∀ key handle, ¬ (run before m).IsPending key (.record tid handle)

theorem Scene.Sent.run [UpdateManager μ] (ids : Pools) (policy : RetryPolicy) (interval now : Nat)
    (turns : List (Turn μ)) :
    let start : Monitor μ := .startWith ids policy interval now
    Sent (Turn.trace turns start) ⟨Turn.run turns start, []⟩ :=
  Turn.run_records (Monitor.keyed_startWith ..) turns Sent Sent.move [] ⟨.nil, nofun⟩

/-- A turn that starts a walk asks for its first record at once. -/
theorem Turn.deeds_discover {link : Link} (known : m.termini.contains tid = true)
    (idle : m.isDiscovering tid = false) :
    Turn.deeds { operation := .discover tid, link } m =
      .begun tid :: m.driven link [] (Operation.opening (.discover tid)) := by
  simp [Turn.deeds, Operation.deeds, Operation.arranged, Operation.ticked, known, idle]

/-- A walk that a turn starts without a request for a record is alone. -/
theorem Scene.Fetching.started [UpdateManager μ] {past : List Deed} {t : Turn μ}
    (sent : Sent past ⟨m, []⟩) (begins : .begun tid ∈ t.deeds m)
    (none : ∀ key handle, ¬ m.IsPending key (.record tid handle)) :
    Fetching tid (past ++ t.deeds m) ⟨t.after m, []⟩ := by
  obtain ⟨operation, link⟩ := t
  obtain ⟨rfl, known, idle⟩ := Turn.discover_of_begun begins
  obtain ⟨terminus, found⟩ := Table.contains_iff.mp known
  have begun : Move ⟨m, []⟩ [.begun tid] ⟨{ m with walks := m.walks.insert tid {} }, []⟩ :=
    .begun found (Table.contains_eq_false_iff.mp idle)
  have asks : Moves ⟨{ m with walks := m.walks.insert tid {} }, []⟩
      (m.driven link [] (Operation.opening (.discover tid)))
      ⟨Turn.after { operation := .discover tid, link } m, []⟩ :=
    Monitor.ends_discover_idle known idle
  rw [Turn.deeds_discover known idle, List.append_cons]
  refine (Fetching.begin known none).moves asks (sent.move begun) fun begins => ?_
  cases Monitor.arranges_of_mem_driven begins

/-- After every run in which the last walk was started alone, the request for a record
that is pending was sent by it. -/
theorem Scene.Fetching.run [UpdateManager μ] (ids : Pools) (policy : RetryPolicy)
    (interval now : Nat) (turns : List (Turn μ)) :
    let start : Monitor μ := .startWith ids policy interval now
    Turn.LastWalkAlone tid turns start →
      Fetching tid (Turn.trace turns start) ⟨Turn.run turns start, []⟩ := by
  intro start
  induction turns using List.reverseRecOn with
  | nil => exact fun _ => .startWith ..
  | append_singleton earlier t ih =>
    intro alone
    have sent : Sent (Turn.trace earlier start) ⟨Turn.run earlier start, []⟩ :=
      .run ids policy interval now earlier
    have keyed : (Turn.run earlier start).Keyed :=
      Turn.keyed_run (Monitor.keyed_startWith ..) earlier
    have trace : Turn.trace [t] (Turn.run earlier start) = t.deeds (Turn.run earlier start) :=
      List.append_nil _
    rw [Turn.trace_append, trace, Turn.run_append]
    by_cases begins : .begun tid ∈ t.deeds (Turn.run earlier start)
    · exact started sent begins (alone earlier t [] rfl begins List.not_mem_nil)
    · refine (ih ?_).moves (Turn.moves keyed t) sent begins
      rintro before t' rest rfl begun last
      refine alone before t' (rest ++ [t]) (by simp) begun ?_
      have later : Turn.run rest (Turn.run (before ++ [t']) start) =
          Turn.run (before ++ t' :: rest) start := by
        rw [← Turn.run_append, List.append_assoc, List.singleton_append]
      rw [Turn.trace_append, later, trace, List.mem_append, not_or]
      exact ⟨last, begins⟩

/-- As long as the last walk of a terminus was started with no request for a record of it
pending, there is one such request at most, and each outcome that comes is of a request
that was sent since the walk was started. Either the walk is still under way and awaits
that record, or the terminus was removed since and no walk is under way. -/
theorem record_outcome_own [UpdateManager μ] (ids : Pools) (policy : RetryPolicy)
    (interval now : Nat) (turns : List (Turn μ)) (tid : Tid) :
    let start : Monitor μ := .startWith ids policy interval now
    let m := Turn.run turns start
    Turn.LastWalkAlone tid turns start →
      (∀ key handle key' handle', m.IsPending key (.record tid handle) →
        m.IsPending key' (.record tid handle') → key = key' ∧ handle = handle') ∧
      (∀ (t : Turn μ) completion handle, completion ∈ t.outcomes m →
        completion.cookie = .record tid handle →
          m.SentByWalk tid (Turn.trace turns start) completion.key handle) ∧
      ∀ (t : Turn μ) key handle, .begun tid ∈ t.deeds m → m.IsPending key (.record tid handle) →
        ∃ earlier since, Turn.trace turns start = earlier ++ .asked key tid handle :: since ∧
          .removed tid ∈ since := by
  intro start m alone
  have fetching : Scene.Fetching tid (Turn.trace turns start) ⟨m, []⟩ :=
    .run ids policy interval now turns alone
  refine ⟨?_, ?_, ?_⟩
  · intro key handle key' handle' pending pending'
    have mem := Scene.mem_fetches.mpr pending
    have mem' := Scene.mem_fetches.mpr pending'
    have one := Nat.le_antisymm fetching.few (List.length_pos_of_mem mem)
    obtain ⟨fetch, only⟩ := List.length_eq_one_iff.mp one
    rw [only, List.mem_singleton] at mem mem'
    exact Prod.mk.inj (mem.trans mem'.symm)
  · intro t completion handle settles asks
    have pending := Turn.outcome_pending settles
    rw [asks] at pending
    exact fetching.own (Scene.mem_fetches.mpr pending)
  · intro t key handle begins pending
    obtain ⟨earlier, since, trace, _, _, standing⟩ := fetching.own (Scene.mem_fetches.mpr pending)
    rcases standing with ⟨removed, _⟩ | ⟨_, walk, found, _⟩
    · exact ⟨earlier, since, trace, removed⟩
    · cases (Table.contains_eq_false_iff.mp (Turn.begun_idle begins)).symm.trans found

/-- A terminus is moved during a walk. The record asked for comes, and then another walk
is started. -/
def walkedAnew : List (Turn Scripted) :=
  [{ operation := .add 1 8 "Rack" },
    { operation := .discover 1 },
    { operation := .add 1 9 "Rack" },
    { operation := .message 8 (FetchRecord.answering 0 0 (.temperature 1)) },
    { operation := .discover 1 }]

theorem record_outcome_own_anew :
    let start : Monitor Scripted := .startWith {} {} 250 0
    let m := Turn.run walkedAnew start
    let answer : Turn Scripted :=
      { operation := .message 9 (FetchRecord.answering 0 0 (.temperature 2)) }
    Turn.LastWalkAlone 1 walkedAnew start ∧
      ∃ completion ∈ answer.outcomes m, completion.cookie = .record 1 0 ∧
        m.SentByWalk 1 (Turn.trace walkedAnew start) completion.key 0 := by
  intro start m answer
  have alone : Turn.LastWalkAlone 1 walkedAnew start := by
    intro before t rest split begins _ key handle
    refine Monitor.not_isPending_of_isEmpty ?_
    have discovers := (Turn.discover_of_begun begins).1
    -- Only two of the turns start walks.
    rcases before with _ | ⟨_, _ | ⟨_, _ | ⟨_, _ | ⟨_, _ | ⟨_, before⟩⟩⟩⟩⟩
    · cases split
      cases discovers
    · cases split
      decide +kernel
    · cases split
      cases discovers
    · cases split
      cases discovers
    · cases split
      decide +kernel
    · simp [walkedAnew] at split
  have answered : ∃ completion ∈ answer.outcomes m, completion.cookie = .record 1 0 := by
    decide +kernel
  obtain ⟨completion, settles, asks⟩ := answered
  obtain ⟨_, own, _⟩ := record_outcome_own {} {} 250 0 walkedAnew 1 alone
  exact ⟨alone, completion, settles, asks, own answer completion 0 settles asks⟩

/-- A terminus is moved during a walk, and another walk is started at once. -/
def walkedTwice : List (Turn Scripted) :=
  [{ operation := .add 1 8 "Rack" },
    { operation := .discover 1 },
    { operation := .add 1 9 "Rack" },
    { operation := .discover 1 }]

/-- The same, but all instance IDs of the new endpoint are in use. -/
def walkedInVain : List (Turn Scripted) :=
  { operation := .share { masks := (∅ : Table Eid IdMask).insert 9 (-1) } } :: walkedTwice

/-- The record comes that the first walk asked for. -/
def firstAnswer : Turn Scripted :=
  { operation := .message 8 (FetchRecord.answering 0 0 (.temperature 1)) }

/-- Both walks have a request pending. If the second one still waits for an instance ID,
the answer to the first one ends it all the same, and brings its sensor. -/
theorem dropped_walk_answered :
    let twice := Turn.run walkedTwice (.startWith {} {} 250 0)
    let waiting := Turn.run walkedInVain (.startWith {} {} 250 0)
    let answered := firstAnswer.after waiting
    twice.pending.entries.map (fun e => (e.1, e.2.cookie)) =
        [(⟨8, 0⟩, .record 1 0), (⟨9, 0⟩, .record 1 0)] ∧
      waiting.pending.keys = [⟨8, 0⟩] ∧ waiting.home 1 = some 9 ∧
      (waiting.walks.get? 1).map (·.inFlight) = some false ∧
      (firstAnswer.outcomes waiting).map (·.key) = [⟨8, 0⟩] ∧
      answered.isDiscovering 1 = false ∧ answered.home 1 = some 9 ∧
      (answered.sensor? ⟨1, 1⟩).isSome = true := by
  decide +kernel

end TerminusMonitor
