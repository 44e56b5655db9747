import Mathlib.Data.List.Nodup
import TerminusMonitor.Proofs.Turn

/-!
The registered sensors.

* `Monitor.Apart`: no two of them share a path, `Monitor.Lone`: none shares that of a sensor;
* `Monitor.Filed`: each is found under its own key, and has each of its levels once, as have
  those that walks have found;
* `Monitor.sensor?_modifyTerminus`, `Monitor.sensor?_setSensor`: what each change is seen as.
-/

namespace TerminusMonitor

variable {μ : Type} {m m' : Monitor μ} {key : SensorKey} {s s' : NumericSensor} {tid : Tid}

namespace Monitor

/-- The registered sensors. -/
def sensors (m : Monitor μ) : List NumericSensor := m.termini.values.flatMap (·.sensors.values)

/-- The paths of the registered sensors. -/
def paths (m : Monitor μ) : List String := m.sensors.map (·.path)

/-- No two registered sensors share a path. -/
def Apart (m : Monitor μ) : Prop := m.paths.Nodup

instance (m : Monitor μ) : Decidable m.Apart := inferInstanceAs (Decidable m.paths.Nodup)

/-- No other registered sensor has the path of a sensor. -/
def Lone (m : Monitor μ) (s : NumericSensor) : Prop := ∀ s' ∈ m.sensors, s'.path = s.path → s' = s

theorem mem_sensors : s ∈ m.sensors ↔ ∃ key, m.sensor? key = some s := by
  simp only [sensors, List.mem_flatMap, Table.mem_values_iff, Watch.sensor?,
    Option.bind_eq_some_iff]
  constructor
  · rintro ⟨terminus, ⟨tid, known⟩, sensor, listed⟩
    exact ⟨⟨tid, sensor⟩, terminus, known, listed⟩
  · rintro ⟨key, terminus, known, listed⟩
    exact ⟨terminus, ⟨key.tid, known⟩, key.sensor, listed⟩

theorem Apart.lone (apart : m.Apart) (mem : s ∈ m.sensors) : m.Lone s :=
  fun _ mem' same => List.inj_on_of_nodup_map apart mem' mem same

end Monitor

/-! ### Sensors -/

namespace NumericSensor

/-- A sensor is filed under its own key, and has no level twice. -/
def IsAt (s : NumericSensor) (key : SensorKey) : Prop := s.key = key ∧ s.levels.Nodup

theorem IsAt.fail (isAt : s.IsAt key) : s.fail.IsAt key := isAt

theorem IsAt.lose (isAt : s.IsAt key) : s.lose.IsAt key := isAt

theorem IsAt.after (isAt : s.IsAt key) (answer : ReadSensor.Answer) :
    (s.after answer).IsAt key := by
  unfold NumericSensor.after
  split
  · split
    · exact ⟨isAt.1, by simpa [levels, hold, Alarm.next, Function.comp_def] using isAt.2⟩
    · exact isAt.fail
  · exact isAt
  · exact isAt

/-- The sensor of a record has each of its levels once. -/
theorem nodup_levels_ofRecord (tid : Tid) (r : NumericSensorRecord) (name : String)
    (path? : Option String) : (ofRecord tid r name path?).levels.Nodup := by
  simp only [levels, ofRecord, List.map_filterMap, Option.map_map]
  apply List.Nodup.filterMap _ (by decide : Level.all.Nodup)
  intro level level' b found found'
  obtain ⟨_, _, rfl⟩ := Option.map_eq_some_iff.mp found
  obtain ⟨_, _, same⟩ := Option.map_eq_some_iff.mp found'
  exact same.symm

end NumericSensor

theorem Monitor.newSensor_isAt (m : Monitor μ) (tid : Tid) (r : NumericSensorRecord) :
    (m.newSensor tid r).IsAt ⟨tid, r.sensor⟩ := by
  constructor
  · exact Monitor.newSensor_key m tid r
  · unfold Monitor.newSensor
    split <;> exact NumericSensor.nodup_levels_ofRecord ..

namespace Monitor

/-! ### Answers -/

theorem sensor?_modifyTerminus {f : Terminus → Terminus} :
    (m.modifyTerminus tid f).sensor? key =
      if key.tid = tid then (m.termini.get? tid).bind fun t => (f t).sensors.get? key.sensor
      else m.sensor? key := by
  simp only [Watch.sensor?, modifyTerminus, Table.get?_modify]
  split
  next => rw [Option.bind_map]; rfl
  next => rfl

theorem sensor?_setSensor {key' : SensorKey} :
    (m.toWatch.setSensor key s).sensor? key' =
      if key' = key then (m.sensor? key).map fun _ => s else m.sensor? key' := by
  simp only [Watch.sensor?, Watch.setSensor, Table.get?_modify]
  by_cases tid : key'.tid = key.tid
  · rw [if_pos tid, ← tid]
    cases m.termini.get? key'.tid with
    | none => simp
    | some terminus =>
      simp only [Option.map_some, Option.bind_some, Table.get?_modify, SensorKey.eq_iff, tid,
        true_and]
  · rw [if_neg tid, if_neg fun eq => tid (congrArg SensorKey.tid eq)]

/-- With a terminus its sensors go. -/
theorem sensor?_erase (termini : m'.termini = m.termini.erase tid) :
    m'.sensor? key = if key.tid = tid then none else m.sensor? key := by
  simp only [Watch.sensor?, termini, Table.get?_erase]
  split <;> rfl

/-- A new terminus has none. -/
theorem sensor?_place {eid : Eid} {name : String} (unknown : m.termini.get? tid = none) :
    Watch.sensor? { m.toWatch with termini := m.termini.insert tid { tid, eid, name } } key =
      m.sensor? key := by
  simp only [Watch.sensor?, Table.get?_insert]
  split
  next own => rw [own, unknown]; rfl
  next => rfl

/-! ### Sensors filed well -/

/-- All sensors, also those that walks have found, are filed well. -/
structure Filed (m : Monitor μ) : Prop where
  termini : ∀ {key s}, m.sensor? key = some s → s.IsAt key
  walks : ∀ {tid walk sensor s}, m.walks.get? tid = some walk →
    walk.sensors.get? sensor = some s → s.IsAt ⟨tid, sensor⟩

theorem filed_startWith (ids : Pools) (policy : RetryPolicy) (interval now : Nat) :
    (Monitor.startWith ids policy interval now : Monitor μ).Filed where
  termini known := by cases known
  walks found := by cases found

namespace Filed

theorem mem_sensors (filed : m.Filed) : s ∈ m.sensors ↔ m.sensor? s.key = some s := by
  rw [Monitor.mem_sensors]
  constructor
  · rintro ⟨key, known⟩
    rwa [(filed.termini known).1]
  · intro known
    exact ⟨s.key, known⟩

theorem keyed (filed : m.Filed) : m.Keyed where
  termini known listed :=
    (filed.termini (Option.bind_eq_some_iff.mpr ⟨_, known, listed⟩)).1
  walks found listed := (filed.walks found listed).1

theorem congr (filed : m.Filed) (termini : m'.termini = m.termini) (walks : m'.walks = m.walks) :
    m'.Filed where
  termini {key s} known := by
    rw [Watch.sensor?, termini] at known
    exact filed.termini known
  walks found := filed.walks (walks ▸ found)

theorem modifyWalk {f : Walk → Walk} (filed : m.Filed)
    (fine : ∀ {walk sensor s}, m.walks.get? tid = some walk →
      (f walk).sensors.get? sensor = some s → s.IsAt ⟨tid, sensor⟩) :
    Filed { m with walks := m.walks.modify tid f } where
  termini := filed.termini
  walks {tid' walk sensor s} found listed := by
    rcases Table.get?_modify_some found with ⟨rfl, walk, before, rfl⟩ | before
    · exact fine before listed
    · exact filed.walks before listed

theorem eraseWalk (filed : m.Filed) : Filed { m with walks := m.walks.erase tid } where
  termini := filed.termini
  walks found listed := filed.walks (Table.get?_erase_some found) listed

theorem insertWalk (filed : m.Filed) : Filed { m with walks := m.walks.insert tid {} } where
  termini := filed.termini
  walks {tid' walk sensor s} found listed := by
    rcases Table.get?_insert_some found with ⟨rfl, rfl⟩ | before
    · cases listed
    · exact filed.walks before listed

theorem noted {record : Record} (filed : m.Filed) : (m.noted tid record).Filed := by
  unfold Monitor.noted
  split
  next => exact filed
  next r _ =>
    apply filed.modifyWalk
    intro walk sensor s found listed
    have isAt := m.newSensor_isAt tid r
    rcases Table.get?_insert_some listed with ⟨rfl, rfl⟩ | before
    · rwa [isAt.1]
    · exact filed.walks found before

theorem setSensor (filed : m.Filed) (isAt : s.IsAt key) :
    Filed { m with toWatch := m.toWatch.setSensor key s } where
  termini {key' s'} known := by
    rw [sensor?_setSensor] at known
    split at known
    next eq =>
      obtain ⟨_, _, rfl⟩ := Option.map_eq_some_iff.mp known
      exact eq ▸ isAt
    next => exact filed.termini known
  walks := filed.walks

/-- Other sensors for a terminus, each under its key. -/
theorem replaced {found : Table SensorId NumericSensor} (filed : m.Filed)
    (after : ∀ key, m'.sensor? key =
      if key.tid = tid then found.get? key.sensor else m.sensor? key)
    (fine : ∀ {sensor s}, found.get? sensor = some s → s.IsAt ⟨tid, sensor⟩)
    (walks : ∀ {tid walk}, m'.walks.get? tid = some walk → m.walks.get? tid = some walk) :
    m'.Filed where
  termini {key s} known := by
    rw [after] at known
    split at known
    next own =>
      have isAt := fine known
      rwa [← own] at isAt
    next => exact filed.termini known
  walks found listed := filed.walks (walks found) listed

end Filed

end Monitor

end TerminusMonitor
