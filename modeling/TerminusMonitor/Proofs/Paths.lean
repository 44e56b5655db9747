import TerminusMonitor.Proofs.Naming
import TerminusMonitor.Proofs.Upkeep

/-!
Which sensors share an object.

With one mapping whose paths differ and are no default paths, and with names that tell the
termini apart, two sensors have one path only if the mapping gives it to both: it tells sensors
by their IDs, and sensors of two termini may have one ID.

* `paths_told_apart`: so it is at all moments of a run, and each sensor that shares no mapping
  with another stays on display, whatever comes of other termini;
* `shared_object_removed`: a shared object goes with the first of its sensors.
-/

namespace TerminusMonitor

variable {μ : Type}

/-- At each moment of a run, in which no two termini have one name and no more than one mapping is
loaded, with sensor paths that differ and are no default paths: two registered sensors have one
path just when they are of different termini and have it from the mapping of their ID. A sensor
beside which no other has its mapping is on display with its properties as they are. -/
theorem paths_told_apart [UpdateManager μ] (ids : Pools) (policy : RetryPolicy)
    (interval now : Nat) (turns : List (Turn μ)) (mapping : Mapping) :
    let start : Monitor μ := .startWith ids policy interval now
    (∀ mapping', Turn.Loads turns mapping' → mapping' = mapping) → mapping.Distinct →
      (∀ x ∈ Turn.moments turns start, x.state.NamedApart) →
        (∀ x ∈ Turn.moments turns start, ∀ s ∈ x.state.sensors, ∀ s' ∈ x.state.sensors,
          (s.path = s'.path ↔ s = s' ∨ s.key.tid ≠ s'.key.tid ∧ s.Shares mapping s')) ∧
        ∀ s : NumericSensor,
          (∀ x ∈ Turn.moments turns start, s ∈ x.state.sensors →
            ∀ s' ∈ x.state.sensors, s.key.tid ≠ s'.key.tid → ¬ s.Shares mapping s') →
          ∀ y ∈ Turn.moments turns start, s ∈ y.state.sensors → y.journal.display.Shows s := by
  intro start once distinct apart
  have keyed : start.Keyed := Monitor.keyed_startWith ids policy interval now
  have housed : ∀ x ∈ Turn.moments turns start, x.state.Housed mapping :=
    Turn.moments_preserve turns keyed _
      (fun move loaded => Monitor.Housed.move move fun mem => once _ (loaded mem))
      (Monitor.housed_startWith mapping ids policy interval now)
  have allKeyed : ∀ x ∈ Turn.moments turns start, x.state.Keyed :=
    Turn.moments_preserve turns keyed _ (fun move _ => Monitor.Keyed.move move) keyed
  have equal : ∀ x ∈ Turn.moments turns start, ∀ s ∈ x.state.sensors, ∀ s' ∈ x.state.sensors,
      (s.path = s'.path ↔ s = s' ∨ s.key.tid ≠ s'.key.tid ∧ s.Shares mapping s') := by
    intro x moment s mem s' mem'
    exact (housed x moment).path_eq_iff (allKeyed x moment) distinct (apart x moment) mem mem'
  refine ⟨equal, ?_⟩
  intro s unshared
  have chain : (Turn.moments turns start).IsChain Refreshes :=
    Turn.refreshes_moments turns (Monitor.filed_startWith ids policy interval now)
  refine shows_of_isChain_lone chain ?_ ?_
  · intro x moment mem s' mem' same
    rcases (equal x moment s mem s' mem').mp same.symm with one | ⟨other, shares⟩
    · exact one.symm
    · exact absurd shares (unshared x moment mem s' mem' other)
  · -- At the start there is no sensor.
    intro x head mem
    cases head
    cases mem

/-- A mapping of the sensor with ID 1. -/
def inlet : Mapping where
  sensors := [{
    path := "/xyz/openbmc_project/sensors/temperature/Inlet"
    sensor := 1
    recordType := Record.numericSensorType }]

theorem distinct_inlet : inlet.Distinct where
  paths := List.nodup_singleton _
  special d mem := by
    rw [List.mem_singleton.mp mem]
    have ends : "/xyz/openbmc_project/sensors/temperature/Inlet".toList.getLast? = some 't' := by
      decide +kernel
    exact NumericSensor.ne_defaultPath ends (by decide)

/-- One terminus has the sensor that is mapped and one that is not, another a sensor with the ID
of that one; the first is removed. -/
def oneInlet : List (Turn Scripted) :=
  [{ operation := .load (.ok inlet) },
    { operation := .add 1 8 "Rack" },
    { operation := .add 2 9 "Shelf" },
    { operation := .discover 1 },
    { operation := .message 8 (FetchRecord.answering 0 1 (.temperature 1)) },
    { operation := .message 8 (FetchRecord.answering 0 0 (.temperature 2)) },
    { operation := .discover 2 },
    { operation := .message 9 (FetchRecord.answering 0 0 (.temperature 2)) },
    { operation := .remove 1 }]

/-- Two termini have a sensor with the ID that is mapped; the first is removed. -/
def twoInlets : List (Turn Scripted) :=
  [{ operation := .load (.ok inlet) },
    { operation := .add 1 8 "Rack" },
    { operation := .add 2 9 "Shelf" },
    { operation := .discover 1 },
    { operation := .message 8 (FetchRecord.answering 0 0 (.temperature 1)) },
    { operation := .discover 2 },
    { operation := .message 9 (FetchRecord.answering 0 0 (.temperature 1)) },
    { operation := .remove 1 }]

/-- Then the sensor with ID 2 of either terminus is on display whenever it is registered. -/
theorem paths_told_apart_oneInlet :
    let start : Monitor Scripted := .startWith {} {} 250 0
    (∀ mapping', Turn.Loads oneInlet mapping' → mapping' = inlet) ∧ inlet.Distinct ∧
      (∀ x ∈ Turn.moments oneInlet start, x.state.NamedApart) ∧
      (Turn.run oneInlet start).sensors.map (·.key) = [⟨2, 2⟩] ∧
      ∀ y ∈ Turn.moments oneInlet start, ∀ s ∈ y.state.sensors, s.key.sensor = 2 →
        y.journal.display.Shows s := by
  have once : ∀ mapping', Turn.Loads oneInlet mapping' → mapping' = inlet := by
    rintro mapping' ⟨t, mem, loaded⟩
    simp only [oneInlet, List.mem_cons, List.not_mem_nil, or_false] at mem
    rcases mem with rfl | rfl | rfl | rfl | rfl | rfl | rfl | rfl | rfl <;> cases loaded
    rfl
  have apart : ∀ x ∈ Turn.moments oneInlet (.startWith {} {} 250 0), x.state.NamedApart := by
    decide +kernel
  obtain ⟨_, shown⟩ := paths_told_apart {} {} 250 0 oneInlet inlet once distinct_inlet apart
  refine ⟨once, distinct_inlet, apart, by decide +kernel, ?_⟩
  intro y moment s mem id
  refine shown s ?_ y moment mem
  rintro x _ _ s' _ _ ⟨_, d, mapped, _⟩
  have none : inlet.sensor? 2 = none := by decide +kernel
  rw [id, none] at mapped
  cases mapped

/-- Both have its path, and so the object goes while the sensor of the other terminus stays. -/
theorem shared_object_removed :
    let start : Monitor Scripted := .startWith {} {} 250 0
    let both := Turn.run twoInlets.dropLast start
    let one := Turn.run twoInlets start
    (∀ mapping', Turn.Loads twoInlets mapping' → mapping' = inlet) ∧ inlet.Distinct ∧
      (∀ x ∈ Turn.moments twoInlets start, x.state.NamedApart) ∧
      both.sensors.map (fun s => (s.key, s.path)) =
        [(⟨1, 1⟩, "/xyz/openbmc_project/sensors/temperature/Inlet"),
          (⟨2, 1⟩, "/xyz/openbmc_project/sensors/temperature/Inlet")] ∧
      one.sensors.map (·.key) = [⟨2, 1⟩] ∧
      ∀ s ∈ one.sensors, (Turn.history twoInlets start).display s.path = none := by
  have once : ∀ mapping', Turn.Loads twoInlets mapping' → mapping' = inlet := by
    rintro mapping' ⟨t, mem, loaded⟩
    simp only [twoInlets, List.mem_cons, List.not_mem_nil, or_false] at mem
    rcases mem with rfl | rfl | rfl | rfl | rfl | rfl | rfl | rfl <;> cases loaded
    rfl
  exact ⟨once, distinct_inlet, by decide +kernel⟩

end TerminusMonitor
