import TerminusMonitor.Proofs.Latching
import TerminusMonitor.Proofs.Outcome
import TerminusMonitor.Sensor.Basic

/-!
What a sensor shows of all that has happened to it.

A sensor takes in readings, fails and is lost. Of the readings only those of an enabled sensor
whose value is finite bring a value (`SensorCall.value?`); the values brought are all that the
alarms depend on, and the last call is all that the value depends on.

* `SensorCall.next_cases`: what a call does, and `SensorCall.foldl_next`: what calls leave alone
  and do to the alarms;
* `NumericSensor.value_finite_iff_working`: a sensor has a finite value exactly while it is
  available and functional, and none otherwise;
* `NumericSensor.alarms_latch_values`: each alarm is the latch of its own level over the values;
* `NumericSensor.alarm_raised_iff`: so which of the values decides it.
-/

namespace TerminusMonitor

variable {s : NumericSensor} {link : Link} {journal : Journal}

/-! ### Calls -/

/-- A call that changes a sensor. -/
inductive SensorCall where
  /-- Takes in a reading. -/
  | receive (answer : ReadSensor.Answer)
  /-- Notes that a reading failed. -/
  | fail
  /-- Notes that the terminus cannot be reached. -/
  | lose
deriving Repr

namespace SensorCall

/-- Makes the call. -/
def act (s : NumericSensor) : SensorCall → Effect NumericSensor
  | receive answer => s.receive answer
  | fail => return s.fail
  | lose => return s.lose

/-- Makes calls one after the other. -/
def run (calls : List SensorCall) (s : NumericSensor) : Effect NumericSensor := calls.foldlM act s

/-- The sensor after a call. -/
def next (s : NumericSensor) : SensorCall → NumericSensor
  | receive answer => s.after answer
  | fail => s.fail
  | lose => s.lose

/-- The value that a call brings, if it brings one. -/
def value? (c : Conversion) : SensorCall → Option Float
  | receive answer =>
    let value := c.apply answer.reading.toFloat
    if answer.operation = .enabled ∧ value.isFinite = true then some value else none
  | fail | lose => none

/-- Calls leave what they do to the sensor, whatever they log beside it. -/
theorem ends_run {calls : List SensorCall} {post : NumericSensor → Journal → Prop} :
    Effect.Ends (run calls s) link journal post ↔
      post (calls.foldl next s) (run calls s link journal).2 := by
  have leaves : (run calls s link journal).1 = calls.foldl next s := by
    induction calls generalizing s journal with
    | nil => rfl
    | cons call rest ih =>
      have step : (call.act s link journal).1 = call.next s := by cases call <;> rfl
      change (run rest (call.act s link journal).1 link _).1 = _
      rw [step, ih, List.foldl_cons]
  rw [Effect.Ends, leaves]

/-! ### What calls do -/

/-- A reading of a sensor that is not enabled leaves it without a value. -/
theorem after_of_not_enabled {answer : ReadSensor.Answer} (off : answer.operation ≠ .enabled) :
    ∃ available, s.after answer = s.blank available false := by
  unfold NumericSensor.after
  split
  next on => exact absurd on off
  next => exact ⟨_, rfl⟩
  next => exact ⟨_, rfl⟩

/-- A call either brings a value or leaves the sensor without one. -/
theorem next_cases (s : NumericSensor) (call : SensorCall) :
    (∃ v, call.value? s.conversion = some v ∧ v.isFinite = true ∧ call.next s = s.hold v) ∨
      call.value? s.conversion = none ∧
        ∃ available functional, (available && functional) = false ∧
          call.next s = s.blank available functional := by
  cases call with
  | fail => exact .inr ⟨rfl, _, _, Bool.and_false _, rfl⟩
  | lose => exact .inr ⟨rfl, _, _, Bool.false_and _, rfl⟩
  | receive answer =>
    by_cases enabled : answer.operation = .enabled
    · simp only [next, value?, NumericSensor.after, NumericSensor.valueOf, enabled, true_and]
      split
      next finite => exact .inl ⟨_, rfl, finite, if_pos finite⟩
      next infinite => exact .inr ⟨rfl, _, _, Bool.and_false _, if_neg infinite⟩
    · obtain ⟨available, eq⟩ := after_of_not_enabled enabled
      exact .inr ⟨if_neg fun h => enabled h.1, _, _, Bool.and_false _, eq⟩

end SensorCall

/-- An alarm after a sequence of values. -/
def Alarm.through (hysteresis : Float) (values : List Float) (a : Alarm) : Alarm :=
  { a with raised := values.foldl (latch a.level.isHigh a.threshold hysteresis) a.raised }

theorem Alarm.through_nil {hysteresis : Float} : through hysteresis [] = id := rfl

theorem Alarm.through_cons {hysteresis v : Float} {values : List Float} :
    through hysteresis (v :: values) = through hysteresis values ∘ next hysteresis v := rfl

/-- Calls change no more of a sensor than its alarms, its value, and whether it is available and
functional. The alarms go through the values that the calls bring. -/
theorem SensorCall.foldl_next (calls : List SensorCall) (s : NumericSensor) :
    ∃ value available functional, calls.foldl next s =
      { s with
        value, available, functional
        alarms := s.alarms.map (Alarm.through s.hysteresis
          (calls.filterMap (value? s.conversion))) } := by
  -- A call changes neither the conversion nor the hysteresis, so those of the first sensor stand
  -- for all later ones.
  induction calls generalizing s with
  | nil => exact ⟨s.value, s.available, s.functional, by simp [Alarm.through_nil]⟩
  | cons call rest ih =>
    obtain ⟨value, available, functional, later⟩ := ih (call.next s)
    refine ⟨value, available, functional, ?_⟩
    rw [List.foldl_cons, later]
    rcases next_cases s call with ⟨v, brings, -, eq⟩ | ⟨brings, _, _, -, eq⟩
    · rw [List.filterMap_cons_some brings, eq, Alarm.through_cons, ← List.map_map]
      rfl
    · rw [List.filterMap_cons_none brings, eq]
      rfl

/-! ### Values -/

namespace NumericSensor

/-- A sensor has a finite value while it is available and functional, and none otherwise. -/
def Honest (s : NumericSensor) : Prop :=
  if s.available && s.functional then s.value.isFinite = true else s.value = noValue

theorem honest_hold {v : Float} (finite : v.isFinite = true) : (s.hold v).Honest := finite

theorem honest_blank {available functional : Bool} (off : (available && functional) = false) :
    (s.blank available functional).Honest := by
  change if available && functional then _ else _
  rw [off]
  rfl

/-- A new sensor waits for its first reading. -/
theorem honest_ofRecord (tid : Tid) (r : NumericSensorRecord) (name : String)
    (path? : Option String) : (ofRecord tid r name path?).Honest := rfl

theorem honest_next (call : SensorCall) : (call.next s).Honest := by
  rcases SensorCall.next_cases s call with ⟨v, -, finite, eq⟩ | ⟨-, available, functional, off, eq⟩
  · rw [eq]
    exact honest_hold finite
  · rw [eq]
    exact honest_blank off

/-- Calls keep a sensor honest, whatever they log beside it. -/
theorem honest_run {calls : List SensorCall} (honest : s.Honest) :
    (calls.foldl SensorCall.next s).Honest := by
  induction calls generalizing s with
  | nil => exact honest
  | cons call rest ih => exact ih (honest_next call)

theorem isNaN_noValue : noValue.isNaN = true := by decide +kernel

theorem isFinite_noValue : noValue.isFinite = false := by decide +kernel

/-- What is finite is a number. -/
theorem isNaN_of_isFinite {x : Float} (finite : x.isFinite = true) : x.isNaN = false := by
  change x.toModel.unpack.isFinite = true at finite
  change x.toModel.unpack.isNaN = false
  cases unpacked : x.toModel.unpack with
  | notANumber =>
    rw [unpacked] at finite
    cases finite
  | _ => rfl

theorem Honest.isFinite (honest : s.Honest) :
    s.value.isFinite = (s.available && s.functional) := by
  unfold Honest at honest
  split at honest
  next works => rw [works, honest]
  next off => rw [honest, isFinite_noValue, Bool.eq_false_iff.mpr off]

theorem Honest.isNaN (honest : s.Honest) : s.value.isNaN = !(s.available && s.functional) := by
  unfold Honest at honest
  split at honest
  next works => rw [works, isNaN_of_isFinite honest, Bool.not_true]
  next off => rw [honest, isNaN_noValue, Bool.eq_false_iff.mpr off, Bool.not_false]

/-- A reading makes a sensor functional if it is one of an enabled sensor and its value is
finite, and not otherwise. -/
theorem functional_after_iff {answer : ReadSensor.Answer} :
    (s.after answer).functional = true ↔
      answer.operation = .enabled ∧
        (s.conversion.apply answer.reading.toFloat).isFinite = true := by
  by_cases enabled : answer.operation = .enabled
  · simp only [after, enabled, true_and]
    split
    next finite => exact iff_of_true rfl finite
    next infinite => exact iff_of_false nofun infinite
  · obtain ⟨available, eq⟩ := SensorCall.after_of_not_enabled (s := s) enabled
    exact iff_of_false (eq ▸ nofun) fun h => enabled h.1

/-- Whatever happened to a sensor, its value is finite while it is available and functional, and
none otherwise. A failure does not change whether it is available, and a reading makes it
functional just if it is one of an enabled sensor and its value is finite. -/
theorem value_finite_iff_working (tid : Tid) (r : NumericSensorRecord) (name : String)
    (path? : Option String) (calls : List SensorCall) (link : Link) (journal : Journal) :
    Effect.Ends (SensorCall.run calls (ofRecord tid r name path?)) link journal fun s _ =>
      s.value.isFinite = (s.available && s.functional) ∧
      s.value.isNaN = !(s.available && s.functional) ∧
      s.fail.available = s.available ∧
      ∀ answer : ReadSensor.Answer, (s.after answer).functional = true ↔
        answer.operation = .enabled ∧
          ((Conversion.ofRecord r).apply answer.reading.toFloat).isFinite = true := by
  rw [SensorCall.ends_run]
  have honest : (calls.foldl SensorCall.next (ofRecord tid r name path?)).Honest :=
    honest_run (honest_ofRecord tid r name path?)
  refine ⟨honest.isFinite, honest.isNaN, rfl, fun answer => ?_⟩
  obtain ⟨value, available, functional, eq⟩ :=
    SensorCall.foldl_next calls (ofRecord tid r name path?)
  rw [functional_after_iff, eq]
  rfl

end NumericSensor

/-! ### Alarms -/

/-- In a list with an element for each level or none, the one of a level is found. -/
theorem Level.find?_filterMap {α : Type} {f : Level → Option α} {levelOf : α → Level}
    (own : ∀ {level a}, f level = some a → levelOf a = level) (level : Level) :
    (all.filterMap f).find? (levelOf · == level) = f level := by
  have listed {level : Level} {a : α} (found : f level = some a) : a ∈ all.filterMap f :=
    List.mem_filterMap.mpr ⟨level, by cases level <;> decide, found⟩
  cases search : (all.filterMap f).find? (levelOf · == level) with
  | none =>
    cases found : f level with
    | none => rfl
    | some a =>
      have other : levelOf a ≠ level := by
        simpa using List.find?_eq_none.mp search a (listed found)
      exact absurd (own found) other
  | some a =>
    obtain ⟨level', -, found⟩ := List.mem_filterMap.mp (List.mem_of_find?_eq_some search)
    have same : levelOf a = level := by simpa using List.find?_some search
    rw [← same, own found, found]

namespace NumericSensor

variable {tid : Tid} {r : NumericSensorRecord} {name : String} {path? : Option String}

/-- The alarm of a level after calls is the latch of that level over the values they brought. -/
theorem alarm?_foldl_next (calls : List SensorCall) (level : Level) :
    (calls.foldl SensorCall.next (ofRecord tid r name path?)).alarm? level =
      (r.threshold? level).map fun raw =>
        (calls.filterMap (SensorCall.value? (Conversion.ofRecord r))).foldl
          (latch level.isHigh ((Conversion.ofRecord r).apply raw.toFloat)
            ((Conversion.ofRecord r).applyDelta r.hysteresis.toFloat)) false := by
  obtain ⟨value, available, functional, eq⟩ :=
    SensorCall.foldl_next calls (ofRecord tid r name path?)
  rw [eq]
  simp only [alarm?, ofRecord, List.map_filterMap, Option.map_map]
  rw [Level.find?_filterMap, Option.map_map]
  · rfl
  · intro level a found
    obtain ⟨raw, -, rfl⟩ := Option.map_eq_some_iff.mp found
    rfl

/-- Whatever happened to a sensor, the alarm of each of its levels is what the threshold of that
level makes of the values brought, in their order: those of the readings of an enabled sensor
that are finite. A further value changes the alarm of each level as that level alone tells, and
no other call changes any. The levels, their thresholds and the hysteresis stay those of the
record. -/
theorem alarms_latch_values (tid : Tid) (r : NumericSensorRecord) (name : String)
    (path? : Option String) (calls : List SensorCall) (link : Link) (journal : Journal) :
    let c := Conversion.ofRecord r
    let hysteresis := c.applyDelta r.hysteresis.toFloat
    Effect.Ends (SensorCall.run calls (ofRecord tid r name path?)) link journal fun s _ =>
      (∀ level, s.alarm? level = (r.threshold? level).map fun raw =>
        (calls.filterMap (SensorCall.value? c)).foldl
          (latch level.isHigh (c.apply raw.toFloat) hysteresis) false) ∧
      (∀ (call : SensorCall) level, (call.next s).alarm? level =
        match call.value? c with
        | none => s.alarm? level
        | some v => (r.threshold? level).bind fun raw => (s.alarm? level).map fun raised =>
            latch level.isHigh (c.apply raw.toFloat) hysteresis raised v) ∧
      s.hysteresis = hysteresis ∧
      (s.alarms.map fun a => (a.level, a.threshold)) = Level.all.filterMap fun level =>
        (r.threshold? level).map fun raw => (level, c.apply raw.toFloat) := by
  intro c hysteresis
  rw [SensorCall.ends_run]
  refine ⟨alarm?_foldl_next calls, fun call level => ?_, ?_⟩
  · -- A call more is a value more, or none.
    have further := @alarm?_foldl_next tid r name path? (calls ++ [call]) level
    simp only [List.foldl_append, List.filterMap_append, List.foldl_cons, List.foldl_nil] at further
    rw [further, alarm?_foldl_next calls level]
    change (r.threshold? level).map _ = match call.value? c with | none => _ | some v => _
    cases brings : call.value? c with
    | none => simp [c, brings]
    | some v => cases r.threshold? level <;> simp [c, hysteresis, brings]
  · obtain ⟨value, available, functional, eq⟩ :=
      SensorCall.foldl_next calls (ofRecord tid r name path?)
    rw [eq]
    refine ⟨rfl, ?_⟩
    simp only [ofRecord, List.map_filterMap, Option.map_map]
    rfl

/-- An alarm is raised just if a value reached the threshold of its level and none since
retreated from it. -/
theorem alarm_raised_iff (calls : List SensorCall) (level : Level) :
    (calls.foldl SensorCall.next (ofRecord tid r name path?)).alarm? level = some true ↔
      ∃ raw, r.threshold? level = some raw ∧
        let c := Conversion.ofRecord r
        ∃ before v since, calls.filterMap (SensorCall.value? c) = before ++ v :: since ∧
          Reaches level.isHigh (c.apply raw.toFloat) v ∧
          ∀ w ∈ since, ¬ Retreats level.isHigh (c.apply raw.toFloat)
            (c.applyDelta r.hysteresis.toFloat) w := by
  rw [alarm?_foldl_next]
  simp [Option.map_eq_some_iff, foldl_latch_iff]

end NumericSensor

end TerminusMonitor
