import TerminusMonitor.Proofs.Operation
import TerminusMonitor.Proofs.Settling

/-!
The course that a walk through the records of a terminus has to take.

A `Course` reads the deeds of a run and stops at one that a walk must not do. It knows
nothing of the state of a monitor: what to ask for next, whether to go on, and which
sensors there are follow from the deeds alone.

* `Course.run`: the course after deeds, if they are those of a walk;
* `Course.sensor?`: the sensor of an ID, from the last record of it.
-/

namespace TerminusMonitor

/-! ### Sensors, readings apart -/

namespace NumericSensor

/-- The sensor as if there had been no readings. -/
def unread (s : NumericSensor) : NumericSensor :=
  { s with
    value := noValue, available := true, functional := false
    alarms := s.alarms.map fun a => { a with raised := false } }

/-- A reading leaves all else of a sensor as it is. -/
theorem unread_taken {s : NumericSensor} {result : Except Fault Response} :
    (s.taken result).unread = s.unread := by
  have held {value : Float} : (s.hold value).unread = s.unread := by
    simp only [unread, hold, List.map_map]
    rfl
  unfold taken
  split
  next =>
    unfold after
    split
    · split
      · exact held
      · rfl
    · rfl
    · rfl
  next => rfl

/-- Without a reading a sensor fails. -/
theorem taken_timedOut {s : NumericSensor} : s.taken (.error .timedOut) = s.fail := rfl

end NumericSensor

/-- The sensor that a record of a named terminus describes. A mapping tells its name and
path. -/
def Mapping.describe (mapping : Mapping) (tid : Tid) (terminus : String)
    (r : NumericSensorRecord) : NumericSensor :=
  match mapping.sensor? r.sensor with
  | some entry => .ofRecord tid r entry.name (some entry.path)
  | none => .ofRecord tid r s!"{terminus}_Sensor_{r.sensor}" none

namespace Mapping

variable {mapping : Mapping} {tid : Tid} {terminus : String} {r : NumericSensorRecord}

/-- A new sensor has nothing to lose. -/
theorem describe_fail :
    (mapping.describe tid terminus r).fail = mapping.describe tid terminus r := by
  unfold describe
  split <;> rfl

end Mapping

theorem Monitor.newSensor_eq {μ : Type} {m : Monitor μ} {tid : Tid} {terminus : Terminus}
    (known : m.termini.get? tid = some terminus) (r : NumericSensorRecord) :
    m.newSensor tid r = m.mapping.describe tid terminus.name r := by
  unfold newSensor Mapping.describe
  rw [known]
  rfl

/-! ### Stages -/

/-- Where a walk stands. -/
inductive Stage where
  /-- A record is to be asked for. -/
  | due (handle : UInt32)
  /-- A record was asked for and has not come yet. -/
  | awaiting (key : RequestKey) (handle : UInt32)
  | ended
deriving DecidableEq

namespace Stage

/-- The record that is to be asked for. -/
def upcoming : Stage → List UInt32
  | due handle => [handle]
  | _ => []

/-- The request that is under way, with the record that it asks for. -/
def fetch : Stage → List (RequestKey × UInt32)
  | awaiting key handle => [(key, handle)]
  | _ => []

end Stage

/-! ### Courses -/

/-- The record of a terminus whose request a deed tells of. -/
def Deed.record? (tid : Tid) : Deed → Option UInt32
  | asked _ tid' handle | unsent tid' handle _ => if tid' = tid then some handle else none
  | _ => none

/-- The course of a walk. -/
structure Course where
  stage : Stage := .due 0
  /-- The records asked for, one after the other. -/
  asked : List UInt32 := []
  /-- The sensors that records described, one after the other. -/
  found : List NumericSensor := []
  /-- The mappings in use. -/
  mapping : Mapping

namespace Course

/-- The sensor of an ID, from the last record of it. -/
def sensor? (c : Course) (sensor : SensorId) : Option NumericSensor :=
  (c.found.filter fun s => s.key.sensor = sensor).getLast?

/-- The course after the record that is due was asked for. -/
def ask (c : Course) (handle : UInt32) (stage : Stage) : Option Course :=
  if c.stage = .due handle then some { c with stage, asked := c.asked ++ [handle] } else none

/-- The course after the outcome of a request. The walk is over at a failure, at the last
record, and at a record that was asked for before. -/
def answered (c : Course) (tid : Tid) (terminus : String) (result : Except Fault Response) :
    Course :=
  match Correlator.understood FetchRecord.parse result with
  | .error _ => { c with stage := .ended }
  | .ok (record, next) =>
    { c with
      stage := if next = 0 ∨ next ∈ c.asked then .ended else .due next
      found := c.found ++ record.sensor?.toList.map (c.mapping.describe tid terminus) }

/-- The course after a deed, unless a walk must not do that. -/
def step (tid : Tid) (terminus : String) (c : Course) : Deed → Option Course
  | .mapped mapping => some { c with mapping }
  | .asked key tid' handle =>
    if tid' = tid then c.ask handle (.awaiting key handle) else some c
  | .unsent tid' handle _ => if tid' = tid then c.ask handle .ended else some c
  | .settled completion =>
    match completion.cookie with
    | .record tid' handle =>
      if tid' = tid then
        if c.stage = .awaiting completion.key handle then
          some (c.answered tid terminus completion.result)
        else none
      else some c
    | _ => some c
  | _ => some c

/-- The course after deeds, if they are those of a walk. -/
def run (tid : Tid) (terminus : String) (c : Course) (deeds : List Deed) : Option Course :=
  deeds.foldlM (step tid terminus) c

variable {tid : Tid} {terminus : String} {c c' : Course} {deeds later : List Deed}

theorem run_single {deed : Deed} : c.run tid terminus [deed] = c.step tid terminus deed := by
  simp only [run, List.foldlM_cons, List.foldlM_nil]
  exact bind_pure _

theorem run_append (first : c.run tid terminus deeds = some c') :
    c.run tid terminus (deeds ++ later) = c'.run tid terminus later := by
  rw [run, List.foldlM_append]
  exact congrArg (· >>= _) first

theorem asked_step {deed : Deed} (goes : c.step tid terminus deed = some c') :
    c'.asked = c.asked ++ (deed.record? tid).toList := by
  have asks {handle : UInt32} {stage : Stage} (goes : c.ask handle stage = some c') :
      c'.asked = c.asked ++ [handle] := by
    unfold ask at goes
    split at goes
    next => cases goes; rfl
    next => cases goes
  have answers {result : Except Fault Response} :
      (c.answered tid terminus result).asked = c.asked := by
    unfold answered
    split <;> rfl
  cases deed with
  | asked key tid' handle =>
    simp only [step, Deed.record?] at goes ⊢
    split at goes
    next own => rw [asks goes, if_pos own]; rfl
    next other => cases goes; rw [if_neg other]; exact (List.append_nil _).symm
  | unsent tid' handle fault =>
    simp only [step, Deed.record?] at goes ⊢
    split at goes
    next own => rw [asks goes, if_pos own]; rfl
    next other => cases goes; rw [if_neg other]; exact (List.append_nil _).symm
  | settled completion =>
    refine Eq.trans ?_ (List.append_nil _).symm
    simp only [step] at goes
    split at goes
    next =>
      split at goes
      next =>
        split at goes
        next => cases goes; exact answers
        next => cases goes
      next => cases goes; rfl
    next => cases goes; rfl
  | _ => cases goes; exact (List.append_nil _).symm

/-- The records that a course asked for are those that the deeds tell of. -/
theorem asked_run (runs : c.run tid terminus deeds = some c') :
    c'.asked = c.asked ++ deeds.filterMap (Deed.record? tid) := by
  induction deeds generalizing c with
  | nil => cases runs; exact (List.append_nil _).symm
  | cons deed rest ih =>
    rw [run, List.foldlM_cons] at runs
    obtain ⟨c₁, first, later⟩ := Option.bind_eq_some_iff.mp runs
    rw [ih later, asked_step first, List.append_assoc, List.filterMap_cons]
    cases deed.record? tid <;> rfl

/-- The last record of a sensor counts. -/
theorem sensor?_found {s : NumericSensor} (found : c'.found = c.found ++ [s]) {sensor : SensorId} :
    c'.sensor? sensor = if sensor = s.key.sensor then some s else c.sensor? sensor := by
  rw [sensor?, found, List.filter_append]
  split
  next eq => simp [eq]
  next ne => simp [sensor?, Ne.symm ne]

end Course

end TerminusMonitor
