import TerminusMonitor.Sensor.Alarm

/-!
What an alarm remembers.

Of a sequence of readings an alarm keeps no more than its last decisive one: that which was at
or beyond the threshold, or back from it by more than the hysteresis. Nothing is asked of the
numbers here, so the statements hold of exact numbers as of doubles, whatever those round.

* `latch_eq_true_iff`: one reading;
* `foldl_latch_iff`: a sequence of readings;
* `latch_history`: the same for each direction, in its own comparisons.
-/

namespace TerminusMonitor

variable {α : Type} [LE α] [LT α] [DecidableLE α] [DecidableLT α] [Add α] [Sub α]
  {high raised : Bool} {threshold hysteresis : α}

/-- A reading is at the threshold or beyond it. -/
def Reaches (high : Bool) (threshold reading : α) : Prop :=
  if high then threshold ≤ reading else reading ≤ threshold

/-- A reading is back from the threshold by more than the hysteresis. -/
def Retreats (high : Bool) (threshold hysteresis reading : α) : Prop :=
  if high then reading < threshold - hysteresis else threshold + hysteresis < reading

/-- A reading that reaches the threshold raises the alarm, also where it retreats from it as
well, and no other does. -/
theorem latch_eq_true_iff {reading : α} :
    latch high threshold hysteresis raised reading = true ↔
      Reaches high threshold reading ∨
        raised = true ∧ ¬ Retreats high threshold hysteresis reading := by
  unfold latch Reaches Retreats
  cases high
  all_goals
    simp only [Bool.false_eq_true, if_false, if_true]
    split
    next reaches => exact iff_of_true rfl (.inl reaches)
    next reaches =>
      split
      next retreats => simp [reaches, retreats]
      next stays => simp [reaches, stays]

/-- An alarm is raised after a sequence of readings if one of them reached the threshold, or it
was raised before them, and none since retreated. -/
theorem foldl_latch_iff {readings : List α} :
    readings.foldl (latch high threshold hysteresis) raised = true ↔
      (∃ before reading since, readings = before ++ reading :: since ∧
          Reaches high threshold reading ∧ ∀ r ∈ since, ¬ Retreats high threshold hysteresis r) ∨
        raised = true ∧ ∀ r ∈ readings, ¬ Retreats high threshold hysteresis r := by
  induction readings generalizing raised with
  | nil => simp
  | cons first rest ih =>
    rw [List.foldl_cons, ih, latch_eq_true_iff, List.forall_mem_cons]
    -- The reading that reached the threshold is either the first one or among the rest.
    have split : (∃ before reading since, first :: rest = before ++ reading :: since ∧
          Reaches high threshold reading ∧ ∀ r ∈ since, ¬ Retreats high threshold hysteresis r) ↔
        (∃ before reading since, rest = before ++ reading :: since ∧
          Reaches high threshold reading ∧ ∀ r ∈ since, ¬ Retreats high threshold hysteresis r) ∨
        Reaches high threshold first ∧ ∀ r ∈ rest, ¬ Retreats high threshold hysteresis r := by
      constructor
      · rintro ⟨before, reading, since, eq, reaches, stays⟩
        cases before with
        | nil =>
          cases eq
          exact .inr ⟨reaches, stays⟩
        | cons _ before =>
          cases eq
          exact .inl ⟨before, reading, since, rfl, reaches, stays⟩
      · rintro (⟨before, reading, since, rfl, reaches, stays⟩ | ⟨reaches, stays⟩)
        · exact ⟨first :: before, reading, since, rfl, reaches, stays⟩
        · exact ⟨[], first, rest, rfl, reaches, stays⟩
    rw [split, or_and_right, or_assoc, and_assoc]

/-- The states of an alarm are what the readings so far make of it. -/
theorem cons_latches {readings : List α} :
    raised :: latches high threshold hysteresis raised readings =
      readings.scanl (latch high threshold hysteresis) raised := by
  induction readings generalizing raised with
  | nil => rfl
  | cons first rest ih =>
    rw [List.scanl_cons, ← ih]
    rfl

/-- A high alarm is raised after a sequence of readings exactly if one of them was at or above
the threshold and none after it below the threshold less the hysteresis, or if it was raised
before and none of them was below that; a low alarm the other way round. -/
theorem latch_history (threshold hysteresis : α) (raised : Bool) (readings : List α) :
    (readings.foldl (latch true threshold hysteresis) raised = true ↔
      (∃ before reading since, readings = before ++ reading :: since ∧ threshold ≤ reading ∧
          ∀ r ∈ since, ¬ r < threshold - hysteresis) ∨
        raised = true ∧ ∀ r ∈ readings, ¬ r < threshold - hysteresis) ∧
    (readings.foldl (latch false threshold hysteresis) raised = true ↔
      (∃ before reading since, readings = before ++ reading :: since ∧ reading ≤ threshold ∧
          ∀ r ∈ since, ¬ threshold + hysteresis < r) ∨
        raised = true ∧ ∀ r ∈ readings, ¬ threshold + hysteresis < r) :=
  ⟨foldl_latch_iff, foldl_latch_iff⟩

example : latches true (40 : Int) 2 false [35, 40, 45, 38, 35, 30, 40] =
    [false, true, true, true, false, false, true] := by decide

example : latches false (30 : Int) 2 false [35, 30, 25, 32, 33, 30] =
    [false, true, true, true, false, true] := by decide

end TerminusMonitor
