import TerminusMonitor.Proofs.Moments
import TerminusMonitor.Proofs.Registry

/-!
The objects on display.

Publishing sets properties of an object, and removing takes the object away, so the calls of a
run in their order tell which objects are on display with which values.

`Redraws` is what each step of a monitor does to them: it takes away the objects of the sensors
that leave the registry, and publishes those that it changes.

* `Redraws.shows`: such a step leaves a sensor on display that shares its path with no other
  before and after;
* `Redraws.isSome_display_iff`: an object that no sensor uses after it was on display before,
  and no sensor that used it has left.
-/

namespace TerminusMonitor

variable {μ : Type}

/-- An object on display: the values of its properties. -/
abbrev Object := String → Option PropertyValue

/-- The objects on display, by their paths. -/
abbrev Display := String → Option Object

/-- The object with other values of some properties. -/
def Object.set (object : Object) (properties : Properties) : Object :=
  properties.foldl (fun object p name => if name = p.1 then some p.2 else object name) object

namespace Display

/-- The display after an event. -/
def after (display : Display) : Event → Display
  | .published path properties => fun path' =>
    if path' = path then some (((display path).getD fun _ => none : Object).set properties)
    else display path'
  | .removed path => fun path' => if path' = path then none else display path'
  | _ => display

/-- A sensor is on display with all its properties as they are. -/
def Shows (display : Display) (s : NumericSensor) : Prop :=
  ∃ object, display s.path = some object ∧ ∀ p ∈ s.properties, object p.1 = some p.2

end Display

/-- The objects on display after what was done. -/
def Journal.display (journal : Journal) : Display := journal.foldl Display.after fun _ => none

/-- Whether an event is about an object. -/
def Event.draws : Event → Bool
  | .published .. => true
  | .removed _ => true
  | _ => false

/-- The events about objects. -/
def Journal.calls (journal : Journal) : Journal := journal.filter Event.draws

/-! ### Properties -/

theorem Object.set_of_notMem {properties : Properties} {name : String} (object : Object)
    (other : name ∉ properties.map Prod.fst) : object.set properties name = object name := by
  induction properties generalizing object with
  | nil => rfl
  | cons p rest ih =>
    rw [List.map_cons, List.mem_cons, not_or] at other
    exact (ih _ other.2).trans (if_neg other.1)

/-- Each property has the value that is set, given that it is set once. -/
theorem Object.set_of_mem {properties : Properties} {p : String × PropertyValue} (object : Object)
    (once : (properties.map Prod.fst).Nodup) (mem : p ∈ properties) :
    object.set properties p.1 = some p.2 := by
  induction properties generalizing object with
  | nil => cases mem
  | cons q rest ih =>
    obtain ⟨other, once⟩ := List.nodup_cons.mp once
    rcases List.mem_cons.mp mem with rfl | mem
    · exact (set_of_notMem _ other).trans (if_pos rfl)
    · exact ih _ once mem

/-- The names of the properties for a level. -/
def Level.propertyNames (level : Level) : List String :=
  let a : Alarm := { level, threshold := 0, raised := false }
  [a.thresholdProperty, a.alarmProperty]

/-- The properties of a sensor are set once each. -/
theorem NumericSensor.nodup_properties {s : NumericSensor} (distinct : s.levels.Nodup) :
    (s.properties.map Prod.fst).Nodup := by
  have names : s.properties.map Prod.fst =
      ["Value", "Unit", "MaxValue", "MinValue", "Available", "Functional"] ++
        s.levels.flatMap Level.propertyNames := by
    simp only [properties, levels, List.map_append, List.map_flatMap, List.flatMap_map]
    rfl
  have general (level : Level) : ∀ name ∈ level.propertyNames,
      name ∉ ["Value", "Unit", "MaxValue", "MinValue", "Available", "Functional"] := by
    cases level <;> decide +kernel
  have once (level : Level) : level.propertyNames.Nodup := by cases level <;> decide +kernel
  have apart (level level' : Level) (ne : level ≠ level') :
      ∀ name ∈ level.propertyNames, name ∉ level'.propertyNames := by
    cases level <;> cases level' <;> first | exact absurd rfl ne | decide +kernel
  rw [names]
  refine List.nodup_append'.mpr ⟨by decide +kernel, ?_, ?_⟩
  · refine List.nodup_flatMap.mpr ⟨fun level _ => once level, ?_⟩
    exact distinct.imp fun {level level'} ne => apart level level' ne
  · intro name fixed mem
    obtain ⟨level, _, named⟩ := List.mem_flatMap.mp mem
    exact general level name named fixed

/-! ### Calls -/

namespace Journal

variable {path : String} {display : Display}

/-- Only the calls matter to what is on display. -/
theorem display_calls (journal : Journal) : journal.calls.foldl Display.after display =
    journal.foldl Display.after display := by
  induction journal generalizing display with
  | nil => rfl
  | cons event rest ih => cases event <;> exact ih

theorem display_of_calls {journal journal' more : Journal}
    (calls : journal'.calls = journal.calls ++ more) :
    journal'.display = more.foldl Display.after journal.display := by
  rw [Journal.display, ← display_calls, calls, List.foldl_append, display_calls]
  rfl

/-- What is taken away is gone, and the rest is as it was. -/
theorem display_removed (paths : List String) :
    ((paths.map .removed : Journal).foldl Display.after display) path =
      if path ∈ paths then none else display path := by
  induction paths generalizing display with
  | nil => simp
  | cons first rest ih =>
    rw [List.map_cons, List.foldl_cons, ih]
    by_cases mem : path ∈ rest
    · simp [mem]
    · simp [mem, Display.after]

/-- What is not published is as it was, -/
theorem display_published_of_notMem {sensors : List NumericSensor}
    (other : path ∉ sensors.map (·.path)) :
    ((sensors.map fun s => .published s.path s.properties : Journal).foldl Display.after
        display) path = display path := by
  induction sensors generalizing display with
  | nil => rfl
  | cons s rest ih =>
    rw [List.map_cons, List.mem_cons, not_or] at other
    rw [List.map_cons, List.foldl_cons, ih other.2]
    exact if_neg other.1

/-- and a sensor with a path of its own is on display as it was published. -/
theorem shows_published {sensors : List NumericSensor} {s : NumericSensor}
    (distinct : s.levels.Nodup) (mem : s ∈ sensors)
    (apart : ∀ s' ∈ sensors, s'.path = s.path → s' = s) :
    Display.Shows ((sensors.map fun s => .published s.path s.properties : Journal).foldl
      Display.after display) s := by
  induction sensors generalizing display with
  | nil => cases mem
  | cons first rest ih =>
    rw [List.map_cons, List.foldl_cons]
    by_cases later : s ∈ rest
    · exact ih later fun s' mem => apart s' (List.mem_cons_of_mem _ mem)
    · obtain rfl : s = first := (List.mem_cons.mp mem).resolve_right later
      have other : s.path ∉ rest.map (·.path) := by
        rintro mem
        obtain ⟨s', mem, same⟩ := List.mem_map.mp mem
        exact later (apart s' (List.mem_cons_of_mem _ mem) same ▸ mem)
      refine ⟨_, (display_published_of_notMem other).trans (if_pos rfl), fun p listed => ?_⟩
      exact Object.set_of_mem _ (NumericSensor.nodup_properties distinct) listed

end Journal

/-! ### Steps -/

/-- A step takes away the objects of the sensors that leave the registry, and publishes all
that it changes. -/
structure Redraws (x y : Moment (Monitor μ)) (gone shown : List NumericSensor) : Prop where
  calls : y.journal.calls =
    x.journal.calls ++ (gone.map (·.path)).map .removed ++
      shown.map fun s => .published s.path s.properties
  left : ∀ {s}, s ∈ gone ↔ s ∈ x.state.sensors ∧ y.state.sensor? s.key = none
  drawn : ∀ {s}, s ∈ shown → s ∈ y.state.sensors
  kept : ∀ {s}, s ∈ y.state.sensors → s ∈ shown ∨ s ∈ x.state.sensors

namespace Redraws

variable {x y : Moment (Monitor μ)} {gone shown : List NumericSensor} {s : NumericSensor}
  {path : String}

theorem display (redraws : Redraws x y gone shown) :
    y.journal.display = (shown.map fun s => .published s.path s.properties : Journal).foldl
      Display.after (((gone.map (·.path)).map .removed : Journal).foldl Display.after
        x.journal.display) := by
  rw [Journal.display_of_calls (redraws.calls.trans (List.append_assoc ..)), List.foldl_append]

/-- A sensor that shares its path with no other before and after stays on display. -/
theorem shows (redraws : Redraws x y gone shown) (filed : y.state.Filed)
    (mem : s ∈ y.state.sensors) (lone' : y.state.Lone s)
    (before : s ∈ x.state.sensors → x.state.Lone s ∧ x.journal.display.Shows s) :
    y.journal.display.Shows s := by
  have known := filed.mem_sensors.mp mem
  rw [redraws.display]
  by_cases listed : s ∈ shown
  · refine Journal.shows_published (filed.termini known).2 listed ?_
    intro s' mem' same
    exact lone' s' (redraws.drawn mem') same
  · have mem₀ := (redraws.kept mem).resolve_left listed
    obtain ⟨lone, object, displayed, properties⟩ := before mem₀
    have unpublished : s.path ∉ shown.map (·.path) := by
      intro mem'
      obtain ⟨s', mem', same⟩ := List.mem_map.mp mem'
      exact listed (lone' s' (redraws.drawn mem') same ▸ mem')
    have stays : s.path ∉ gone.map (·.path) := by
      intro mem'
      obtain ⟨s', mem', same⟩ := List.mem_map.mp mem'
      obtain ⟨mem', left⟩ := redraws.left.mp mem'
      rw [lone s' mem' same, known] at left
      cases left
    refine ⟨object, ?_, properties⟩
    rw [Journal.display_published_of_notMem unpublished, Journal.display_removed, if_neg stays,
      displayed]

/-- An object that no sensor uses afterwards was on display before, and no sensor that used it
has left. -/
theorem isSome_display_iff (redraws : Redraws x y gone shown) (filed : y.state.Filed)
    (unused : path ∉ y.state.paths) :
    (y.journal.display path).isSome ↔
      (x.journal.display path).isSome ∧
        ∀ s ∈ x.state.sensors, s.path = path → ∃ s' ∈ y.state.sensors, s'.key = s.key := by
  have unpublished : path ∉ shown.map (·.path) := by
    intro mem
    obtain ⟨s, listed, rfl⟩ := List.mem_map.mp mem
    exact unused (List.mem_map_of_mem (redraws.drawn listed))
  have stays : path ∉ gone.map (·.path) ↔
      ∀ s ∈ x.state.sensors, s.path = path → ∃ s' ∈ y.state.sensors, s'.key = s.key := by
    constructor
    · intro stays s mem same
      cases left : y.state.sensor? s.key with
      | none => exact (stays (List.mem_map.mpr ⟨s, redraws.left.mpr ⟨mem, left⟩, same⟩)).elim
      | some s' => exact ⟨s', Monitor.mem_sensors.mpr ⟨_, left⟩, (filed.termini left).1⟩
    · intro stay mem
      obtain ⟨s, mem, same⟩ := List.mem_map.mp mem
      obtain ⟨mem, left⟩ := redraws.left.mp mem
      obtain ⟨s', mem', key⟩ := stay s mem same
      rw [← key, filed.mem_sensors.mp mem'] at left
      cases left
  rw [redraws.display, Journal.display_published_of_notMem unpublished, Journal.display_removed,
    ← stays]
  by_cases mem : path ∈ gone.map (·.path)
  · simp [mem]
  · simp [mem]

end Redraws

end TerminusMonitor
