import TerminusMonitor.Proofs.Refresh
import TerminusMonitor.Simulation.Peer
import TerminusMonitor.Simulation.Scripted

/-!
Objects that are left over on the display.

An object is removed when the sensor that uses it leaves the registry. A sensor that is found
again, with a path that differs from the one that it had, does not leave, and the object that
it had stays.

* `Redraws.isSome_display_iff` says what one step leaves;
* `left_over_iff`: after a run, the objects of no sensor are just those that sensors have gone
  away from in this way, and that no sensor came back to;
* `unit_changed_left_over`: a sensor whose record tells another unit leaves its object behind.
-/

namespace TerminusMonitor

variable {μ : Type} {path : String} {x y z : Moment (Monitor μ)}

/-- An object is on display after all sensors that used it, of which there were some, went over
to other paths. -/
structure Forsakes (path : String) (x y : Moment (Monitor μ)) : Prop where
  shown : (x.journal.display path).isSome
  used : path ∈ x.state.paths
  stay : ∀ s ∈ x.state.sensors, s.path = path → ∃ s' ∈ y.state.sensors, s'.key = s.key
  unused : path ∉ y.state.paths

/-- An object that no sensor uses after a step was on display, and its sensors have just left it
if there were any. -/
theorem Refreshes.unused_iff (refreshes : Refreshes x y) (unused : path ∉ y.state.paths) :
    (y.journal.display path).isSome ↔
      ((x.journal.display path).isSome ∧ path ∉ x.state.paths) ∨ Forsakes path x y := by
  obtain ⟨filed, gone, shown, redraws⟩ := refreshes
  rw [redraws.isSome_display_iff filed unused]
  constructor
  · rintro ⟨displayed, stay⟩
    by_cases used : path ∈ x.state.paths
    · exact .inr ⟨displayed, used, stay, unused⟩
    · exact .inl ⟨displayed, used⟩
  · rintro (⟨displayed, free⟩ | forsakes)
    · refine ⟨displayed, ?_⟩
      rintro s mem rfl
      exact (free (List.mem_map_of_mem mem)).elim
    · exact ⟨forsakes.shown, forsakes.stay⟩

/-- An object of no sensor was left over all the time, or its sensors left it on the way. -/
theorem left_over_iff_of_isChain {later : List (Moment (Monitor μ))}
    (chain : (x :: later).IsChain Refreshes) (last : (x :: later).getLast? = some z) :
    (z.journal.display path).isSome ∧ path ∉ z.state.paths ↔
      ((x.journal.display path).isSome ∧ ∀ y ∈ x :: later, path ∉ y.state.paths) ∨
      ∃ before a b after, x :: later = before ++ a :: b :: after ∧ Forsakes path a b ∧
        ∀ y ∈ after, path ∉ y.state.paths := by
  induction later generalizing x with
  | nil =>
    cases last
    have single (before : List (Moment (Monitor μ))) (a b after) :
        [x] ≠ before ++ a :: b :: after := by
      intro split
      have lengths := congrArg List.length split
      simp at lengths
      omega
    simp [single]
  | cons y rest ih =>
    obtain ⟨refreshes, chain⟩ := List.isChain_cons_cons.mp chain
    rw [ih chain (List.getLast?_cons_cons ▸ last)]
    constructor
    · rintro (⟨displayed, free⟩ | ⟨before, a, b, after, split, forsakes, free⟩)
      · have unused := free y List.mem_cons_self
        rcases (refreshes.unused_iff unused).mp displayed with ⟨displayed, unused'⟩ | forsakes
        · exact .inl ⟨displayed, List.forall_mem_cons.mpr ⟨unused', free⟩⟩
        · refine .inr ⟨[], x, y, rest, rfl, forsakes, ?_⟩
          exact fun z mem => free z (List.mem_cons_of_mem _ mem)
      · exact .inr ⟨x :: before, a, b, after, congrArg (x :: ·) split, forsakes, free⟩
    · rintro (⟨displayed, free⟩ | ⟨before, a, b, after, split, forsakes, free⟩)
      · obtain ⟨unused, free⟩ := List.forall_mem_cons.mp free
        refine .inl ⟨?_, free⟩
        exact (refreshes.unused_iff (free y List.mem_cons_self)).mpr (.inl ⟨displayed, unused⟩)
      · cases before with
        | nil =>
          cases split
          refine .inl ⟨(refreshes.unused_iff forsakes.unused).mpr (.inr forsakes), ?_⟩
          exact List.forall_mem_cons.mpr ⟨forsakes.unused, free⟩
        | cons first before =>
          obtain ⟨rfl, same⟩ := List.cons.inj split
          exact .inr ⟨before, a, b, after, same, forsakes, free⟩

/-- After every run, an object on display is that of no registered sensor just when, at some
moment, all the sensors that used it were found again with other paths, and it was not used
since. -/
theorem left_over_iff [UpdateManager μ] (ids : Pools) (policy : RetryPolicy) (interval now : Nat)
    (turns : List (Turn μ)) (path : String) :
    let start : Monitor μ := .startWith ids policy interval now
    ((Turn.history turns start).display path).isSome ∧ path ∉ (Turn.run turns start).paths ↔
      ∃ before x y after, Turn.moments turns start = before ++ x :: y :: after ∧
        Forsakes path x y ∧ ∀ z ∈ after, path ∉ z.state.paths := by
  intro start
  have chain : (Turn.moments turns start).IsChain Refreshes :=
    Turn.refreshes_moments turns (Monitor.filed_startWith ids policy interval now)
  refine (left_over_iff_of_isChain chain (Turn.getLast?_moments turns start)).trans ⟨?_, .inr⟩
  rintro (⟨displayed, _⟩ | forsaken)
  · cases displayed
  · exact forsaken

/-- A sensor is found, and found again with another unit. -/
def unitChanged : List (Turn Scripted) :=
  [{ operation := .add 1 8 "Rack" },
    { operation := .discover 1 },
    { operation := .message 8 (FetchRecord.answering 0 0 (.temperature 1)) },
    { operation := .discover 1 },
    { operation := .message 8
        (FetchRecord.answering 0 0 { NumericSensorRecord.temperature 1 with baseUnit := 5 }) }]

/-- The object below the first unit stays on display, though the sensor is not there any more. -/
theorem unit_changed_left_over :
    let start : Monitor Scripted := .startWith {} {} 250 0
    let path := "/xyz/openbmc_project/sensors/temperature/Rack_Sensor_1"
    ((Turn.history unitChanged start).display path).isSome ∧
      path ∉ (Turn.run unitChanged start).paths ∧
      (Turn.run unitChanged start).paths =
        ["/xyz/openbmc_project/sensors/voltage/Rack_Sensor_1"] := by
  decide +kernel

end TerminusMonitor
