import Mathlib.Data.List.Pairwise
import TerminusMonitor.Proofs.Turn

/-!
The readings that are outstanding.

The poller keeps a mark for each sensor that it asked for a reading, and the
correlator keeps the request. Between moves each mark stands for one request, pending
or in hand (`Scene.Marked`).

* `Scene.Marked.move`: each move keeps marks and requests together;
* `outstanding_iff_pending`: after every run a sensor is marked exactly when one
  pending request is for its reading, and may be polled again when there is none.
-/

namespace TerminusMonitor

variable {μ : Type}

/-- The sensor that a request asks for a reading, if it asks for one. -/
def Purpose.reading? : Purpose → Option SensorKey
  | .reading key => some key
  | _ => none

theorem Purpose.reading?_eq_some_iff {purpose : Purpose} {key : SensorKey} :
    purpose.reading? = some key ↔ purpose = .reading key := by
  cases purpose <;> simp [reading?]

namespace Scene

variable {s s' : Scene μ}

/-- The sensors that the requests ask for readings. -/
def readings (s : Scene μ) : List SensorKey :=
  s.requests.filterMap fun request => request.2.reading?

/-- Marks and requests agree, and no sensor has two requests. -/
structure Marked (s : Scene μ) : Prop where
  once : s.readings.Nodup
  marked : ∀ {k}, s.monitor.poller.outstanding.contains k = true ↔ k ∈ s.readings

/-! ### Single moves -/

theorem readings_cons {request : RequestKey × Purpose}
    (requests : s'.requests.Perm (request :: s.requests)) :
    s'.readings.Perm (request.2.reading?.toList ++ s.readings) := by
  refine (requests.filterMap fun request => request.2.reading?).trans (.of_eq ?_)
  obtain ⟨key, purpose⟩ := request
  cases purpose <;> rfl

namespace Marked

theorem congr (start : s.Marked) (requests : s'.requests.Perm s.requests)
    (outstanding : s'.monitor.poller.outstanding = s.monitor.poller.outstanding) : s'.Marked := by
  have perm : s'.readings.Perm s.readings := requests.filterMap _
  refine ⟨perm.nodup_iff.mpr start.once, ?_⟩
  intro k
  rw [outstanding, perm.mem_iff, start.marked]

/-- Requests for other things than readings do not matter. -/
theorem other {request : RequestKey × Purpose} (start : s.Marked)
    (requests : s'.requests.Perm (request :: s.requests)) (other : request.2.reading? = none)
    (outstanding : s'.monitor.poller.outstanding = s.monitor.poller.outstanding) : s'.Marked := by
  have perm := readings_cons requests
  rw [other] at perm
  refine ⟨perm.nodup_iff.mpr start.once, ?_⟩
  intro k
  rw [outstanding, perm.mem_iff, start.marked]
  rfl

/-- A sensor that is asked for a reading is marked. -/
theorem ask {request : RequestKey × Purpose} {sensor : SensorKey} (start : s.Marked)
    (requests : s'.requests.Perm (request :: s.requests)) (asks : request.2 = .reading sensor)
    (unmarked : s.monitor.poller.outstanding.contains sensor = false)
    (outstanding : s'.monitor.poller.outstanding =
      s.monitor.poller.outstanding.insert sensor ()) : s'.Marked := by
  have perm : s'.readings.Perm (sensor :: s.readings) := by
    simpa [asks, Purpose.reading?] using readings_cons requests
  have absent : sensor ∉ s.readings := fun mem => by
    rw [start.marked.mpr mem] at unmarked
    cases unmarked
  refine ⟨perm.nodup_iff.mpr (List.nodup_cons.mpr ⟨absent, start.once⟩), ?_⟩
  intro k
  rw [outstanding, Table.contains_insert, perm.mem_iff, List.mem_cons, start.marked]

/-- A sensor whose reading comes is marked no longer. -/
theorem answer {key : RequestKey} {sensor : SensorKey} (start : s.Marked)
    (requests : s.requests.Perm ((key, .reading sensor) :: s'.requests))
    (outstanding : s'.monitor.poller.outstanding =
      s.monitor.poller.outstanding.erase sensor) : s'.Marked := by
  have perm : s.readings.Perm (sensor :: s'.readings) := readings_cons requests
  obtain ⟨absent, once⟩ := List.nodup_cons.mp (perm.nodup_iff.mp start.once)
  refine ⟨once, ?_⟩
  intro k
  rw [outstanding, Table.contains_erase, start.marked, perm.mem_iff, List.mem_cons]
  constructor
  · rintro ⟨ne, rfl | mem⟩
    · exact absurd rfl ne
    · exact mem
  · intro mem
    exact ⟨fun eq => absent (eq ▸ mem), .inr mem⟩

/-- The end of a request for something else than a reading does not matter. -/
theorem end_other {request : RequestKey × Purpose} (start : s.Marked)
    (requests : s.requests.Perm (request :: s'.requests)) (other : request.2.reading? = none)
    (outstanding : s'.monitor.poller.outstanding = s.monitor.poller.outstanding) : s'.Marked := by
  have perm := readings_cons requests
  rw [other] at perm
  refine ⟨perm.nodup_iff.mp start.once, ?_⟩
  intro k
  rw [outstanding, start.marked, perm.mem_iff]
  rfl

theorem settled {m : Monitor μ} {hand : List (Completion Purpose)}
    {completion : Completion Purpose} (start : Marked ⟨m, completion :: hand⟩) :
    Marked ⟨m.settled completion, hand⟩ := by
  have requests := requests_settled m hand completion
  have outstanding := m.settled_outstanding completion
  obtain ⟨key, purpose, result⟩ := completion
  cases purpose with
  | reading sensor => exact start.answer requests outstanding
  | record => exact start.end_other requests rfl outstanding
  | effecter => exact start.end_other requests rfl outstanding

theorem move {deeds : List Deed} (move : Move s deeds s') (start : s.Marked) : s'.Marked := by
  cases move with
  | aside alike =>
    exact start.congr (.of_eq (requests_congr alike.pending)) alike.outstanding
  | placed => exact start.congr (.refl _) rfl
  | reached => exact start.congr (.refl _) rfl
  | lost => exact start.congr (.refl _) rfl
  | removed => exact start.congr (.refl _) rfl
  | mapped => exact start.congr (.refl _) rfl
  | shared => exact start.congr (.refl _) rfl
  | dropped => exact start.congr (.refl _) rfl
  | renewed => exact start.congr (.of_eq requests_renewed) rfl
  | shed pending cookie => exact start.congr (requests_shed pending cookie) rfl
  | settled => exact start.settled
  | begun => exact start.congr (.refl _) rfl
  | strayed => exact start.congr (.refl _) rfl
  | asked known found waiting free fresh => exact start.other (requests_opened fresh rfl) rfl rfl
  | unsent =>
    obtain ⟨requests, poller⟩ := Monitor.finished_frame (Monitor.withRequests _ _) _
    exact start.congr (.of_eq (requests_congr (by rw [requests]; rfl)))
      (congrArg Poller.outstanding poller)
  | refused => exact start.congr (.refl _) rfl
  | polled known listed reachable due free fresh =>
    obtain ⟨unmarked, _⟩ := Bool.and_eq_true_iff.mp due
    exact start.ask (requests_opened fresh rfl) rfl (by simpa using unmarked) rfl
  | failed => exact start.congr (.refl _) rfl
  | set free fresh => exact start.other (requests_opened fresh rfl) rfl rfl

end Marked

end Scene

/-! ### Runs -/

namespace Scene.Marked

variable {m : Monitor μ} {sensor : SensorKey}

theorem mem_readings : sensor ∈ readings ⟨m, []⟩ ↔ ∃ key, m.IsPending key (.reading sensor) := by
  simp only [readings, List.mem_filterMap, Prod.exists, Purpose.reading?_eq_some_iff]
  constructor
  · rintro ⟨key, _, mem, rfl⟩
    exact ⟨key, mem_requests.mp mem⟩
  · rintro ⟨key, reading⟩
    exact ⟨key, _, mem_requests.mpr reading, rfl⟩

/-- With no outcome in hand, a mark stands for a pending request. -/
theorem iff_pending (marked : Marked ⟨m, []⟩) :
    m.poller.outstanding.contains sensor = true ↔ ∃ key, m.IsPending key (.reading sensor) :=
  marked.marked.trans mem_readings

theorem pending_unique (marked : Marked ⟨m, []⟩) {key key' : RequestKey}
    (reading : m.IsPending key (.reading sensor)) (reading' : m.IsPending key' (.reading sensor)) :
    key = key' := by
  by_contra ne
  have apart := List.pairwise_filterMap.mp marked.once
  have symm : Std.Symm fun r r' : RequestKey × Purpose =>
      ∀ k, r.2.reading? = some k → ∀ k', r'.2.reading? = some k' → k ≠ k' :=
    ⟨fun _ _ apart k asks k' asks' => (apart k' asks' k asks).symm⟩
  exact apart.forall (mem_requests.mpr reading) (mem_requests.mpr reading')
    (fun eq => ne (congrArg Prod.fst eq)) sensor rfl sensor rfl rfl

/-- At the start nothing is marked and nothing is pending. -/
theorem startWith (ids : Pools) (policy : RetryPolicy) (interval now : Nat) :
    Marked (⟨.startWith ids policy interval now, []⟩ : Scene μ) :=
  ⟨.nil, fun {_} => ⟨Bool.noConfusion, fun mem => (List.not_mem_nil mem).elim⟩⟩

end Scene.Marked

/-- After every run a sensor is marked exactly when a pending request is for its reading,
which then is the only one. So it is due exactly when there is no such request and its
update interval is over, as far as the sum of 64 bits tells that says when it is. -/
theorem outstanding_iff_pending [UpdateManager μ] (ids : Pools) (policy : RetryPolicy)
    (interval now : Nat) (turns : List (Turn μ)) (sensor : SensorKey) :
    let m := Turn.run turns (Monitor.startWith ids policy interval now)
    (m.poller.outstanding.contains sensor = true ↔ ∃ key, m.IsPending key (.reading sensor)) ∧
      (∀ key key', m.IsPending key (.reading sensor) → m.IsPending key' (.reading sensor) →
        key = key') ∧
      ∀ s time, s.key = sensor →
        (m.poller.isDue s time = true ↔
          (¬ ∃ key, m.IsPending key (.reading sensor)) ∧
            ∀ last, m.poller.lastPoll.get? sensor = some last →
              s.updateInterval = 0 ∨ timeAfter last s.updateInterval ≤ time) := by
  intro m
  have marked : Scene.Marked ⟨m, []⟩ :=
    Turn.run_preserves (Monitor.keyed_startWith ..) turns _ Scene.Marked.move (.startWith ..)
  refine ⟨marked.iff_pending, fun _ _ => marked.pending_unique, ?_⟩
  intro s time own
  subst own
  rw [← marked.iff_pending, Poller.isDue]
  cases m.poller.outstanding.contains s.key <;> cases m.poller.lastPoll.get? s.key <;> simp

end TerminusMonitor
