import TerminusMonitor.Proofs.Refresh
import TerminusMonitor.Simulation.Peer
import TerminusMonitor.Simulation.Scripted

/-!
The display keeps up with the registry.

A sensor changes by readings and their failures, when it cannot be asked, when its terminus is
lost, and when it is found anew; and sensors come and go. Each time the display is told, and as
long as no two sensors share a path no object is removed that another sensor uses.

* `shows_of_isChain_lone`, `shows_of_isChain`: so what is on display stays true from each moment
  to the next;
* `registered_sensors_shown`: after every run without shared paths, all registered sensors are
  on display as they are.
-/

namespace TerminusMonitor

variable {μ : Type}

/-- Steps that refresh the display keep a sensor on it as long as it shares its path with no
other. -/
theorem shows_of_isChain_lone {moments : List (Moment (Monitor μ))} {s : NumericSensor}
    (chain : moments.IsChain Refreshes)
    (lone : ∀ x ∈ moments, s ∈ x.state.sensors → x.state.Lone s)
    (start : ∀ x ∈ moments.head?, s ∈ x.state.sensors → x.journal.display.Shows s) :
    ∀ x ∈ moments, s ∈ x.state.sensors → x.journal.display.Shows s := by
  induction chain with
  | nil => exact List.forall_mem_nil _
  | singleton x => exact List.forall_mem_singleton.mpr (start x rfl)
  | @cons_cons x y rest refreshes _ ih =>
    obtain ⟨filed, gone, shown, redraws⟩ := refreshes
    obtain ⟨loneX, later⟩ := List.forall_mem_cons.mp lone
    refine List.forall_mem_cons.mpr ⟨start x rfl, ih later ?_⟩
    intro y' head mem
    cases head
    exact redraws.shows filed mem (later y List.mem_cons_self mem)
      fun mem₀ => ⟨loneX mem₀, start x rfl mem₀⟩

/-- They keep all registered sensors on it, as long as no two of them share a path. -/
theorem shows_of_isChain {moments : List (Moment (Monitor μ))} (chain : moments.IsChain Refreshes)
    (apart : ∀ x ∈ moments, x.state.Apart)
    (start : ∀ x ∈ moments.head?, ∀ s ∈ x.state.sensors, x.journal.display.Shows s) :
    ∀ x ∈ moments, ∀ s ∈ x.state.sensors, x.journal.display.Shows s := by
  intro x mem s
  exact shows_of_isChain_lone chain (fun x mem => (apart x mem).lone)
    (fun x head => start x head s) x mem

/-- After every run in which no two registered sensors share a path at any moment, each
registered sensor is on display with all its properties as they are: its value, unit and limits,
whether it is available and functional, its thresholds and its alarms. -/
theorem registered_sensors_shown [UpdateManager μ] (ids : Pools) (policy : RetryPolicy)
    (interval now : Nat) (turns : List (Turn μ)) :
    let start : Monitor μ := .startWith ids policy interval now
    (∀ x ∈ Turn.moments turns start, x.state.Apart) →
      ∀ s ∈ (Turn.run turns start).sensors, (Turn.history turns start).display.Shows s := by
  intro start apart
  have chain : (Turn.moments turns start).IsChain Refreshes :=
    Turn.refreshes_moments turns (Monitor.filed_startWith ids policy interval now)
  have last := List.mem_of_getLast? (Turn.getLast?_moments turns start)
  refine shows_of_isChain chain apart ?_ _ last
  -- At the start there is no sensor.
  intro x head s mem
  cases head
  cases mem

/-- Two sensors are found and asked for readings; one answer comes, and then the terminus is
lost. -/
def twoSensorsLost : List (Turn Scripted) :=
  [{ operation := .add 1 8 "Rack" },
    { operation := .discover 1 },
    { operation := .message 8 (FetchRecord.answering 0 1 (.temperature 1)) },
    { operation := .message 8 (FetchRecord.answering 0 0 (.temperature 2)) },
    { operation := .startPolling },
    { operation := .update 0 },
    { operation := .message 8 (ReadSensor.answering 0 .unavailable (.u8 0)) },
    { operation := .markUnreachable 1 }]

theorem registered_sensors_shown_twoSensorsLost :
    let start : Monitor Scripted := .startWith {} {} 250 0
    (Turn.run twoSensorsLost start).sensors.map (·.key) = [⟨1, 1⟩, ⟨1, 2⟩] ∧
      (∀ x ∈ Turn.moments twoSensorsLost start, x.state.Apart) ∧
      ∀ s ∈ (Turn.run twoSensorsLost start).sensors,
        (Turn.history twoSensorsLost start).display.Shows s := by
  have apart : ∀ x ∈ Turn.moments twoSensorsLost (.startWith {} {} 250 0), x.state.Apart := by
    decide +kernel
  have shown := registered_sensors_shown {} {} 250 0 twoSensorsLost
  exact ⟨by decide +kernel, apart, shown apart⟩

end TerminusMonitor
