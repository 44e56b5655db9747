import Mathlib.Data.List.Nodup
import TerminusMonitor.Proofs.Registry
import TerminusMonitor.Proofs.Strides

/-!
The paths of sensors.

A sensor is published at the path of its mapping, which is found by its ID alone, or else at a
default path that is made of the unit, the name of its terminus and its ID.

* `NumericSensor.defaultPath_inj`: a default path tells the terminus and the sensor;
* `NumericSensor.HousedBy`: where a sensor of a terminus may be published;
* `Monitor.Housed`: there all sensors are, also those that walks have found.
-/

namespace TerminusMonitor

variable {μ : Type} {m m' : Monitor μ} {mapping : Mapping} {tid : Tid} {s s' : NumericSensor}

/-! ### Default paths -/

/-- Lists are told apart at the first place of an element. -/
private theorem append_cons_inj_left {α : Type} {a : α} {l l' t t' : List α}
    (first : a ∉ l) (first' : a ∉ l') (same : l ++ a :: t = l' ++ a :: t') : l = l' ∧ t = t' := by
  induction l generalizing l' with
  | nil =>
    cases l' with
    | nil => exact ⟨rfl, (List.cons.inj same).2⟩
    | cons b rest => exact absurd (List.cons.inj same).1 (List.ne_of_not_mem_cons first')
  | cons b rest ih =>
    cases l' with
    | nil => exact absurd (List.cons.inj same).1.symm (List.ne_of_not_mem_cons first)
    | cons c rest' =>
      obtain ⟨rfl, rests⟩ := List.cons.inj same
      obtain ⟨rfl, later⟩ := ih (List.not_mem_of_not_mem_cons first)
        (List.not_mem_of_not_mem_cons first') rests
      exact ⟨rfl, later⟩

/-- And so they are at its last place. -/
private theorem append_cons_inj_right {α : Type} {a : α} {l l' t t' : List α}
    (last : a ∉ t) (last' : a ∉ t') (same : l ++ a :: t = l' ++ a :: t') : l = l' ∧ t = t' := by
  have reversed : t.reverse ++ a :: l.reverse = t'.reverse ++ a :: l'.reverse := by
    simpa using congrArg List.reverse same
  obtain ⟨ends, starts⟩ :=
    append_cons_inj_left (by simpa using last) (by simpa using last') reversed
  exact ⟨List.reverse_injective starts, List.reverse_injective ends⟩

namespace NumericSensor

/-- The name of a sensor without a mapping. -/
def defaultName (terminus : String) (sensor : SensorId) : String := s!"{terminus}_Sensor_{sensor}"

/-- The path of a sensor without a mapping. -/
def defaultPath (unit : SensorUnit) (terminus : String) (sensor : SensorId) : String :=
  s!"{root}/{unit.pathPart}/{defaultName terminus sensor}"

theorem toList_defaultName (terminus : String) (sensor : SensorId) :
    (defaultName terminus sensor).toList =
      (terminus.toList ++ "_Sensor".toList) ++ '_' :: Nat.toDigits 10 sensor.toNat := by
  have name : defaultName terminus sensor = terminus ++ "_Sensor_" ++ sensor.toNat.repr := rfl
  rw [name, String.toList_append, String.toList_append, Nat.toList_repr]
  simp

theorem toList_defaultPath (unit : SensorUnit) (terminus : String) (sensor : SensorId) :
    (defaultPath unit terminus sensor).toList =
      (root.toList ++ ['/']) ++
        (unit.pathPart.toList ++ '/' :: (defaultName terminus sensor).toList) := by
  have path : defaultPath unit terminus sensor =
      root ++ "/" ++ unit.pathPart ++ "/" ++ defaultName terminus sensor := rfl
  simp [path, String.toList_append]

/-- A default name tells the name of the terminus and the sensor, -/
theorem defaultName_inj {terminus terminus' : String} {sensor sensor' : SensorId} :
    defaultName terminus sensor = defaultName terminus' sensor' ↔
      terminus = terminus' ∧ sensor = sensor' := by
  constructor
  · intro same
    -- The ID stands after the last underscore.
    have digits (sensor : SensorId) : '_' ∉ Nat.toDigits 10 sensor.toNat := by
      intro mem
      have digit := Nat.isDigit_of_mem_toDigits (by decide) (by decide) mem
      exact absurd digit (by decide)
    have parts := congrArg String.toList same
    rw [toList_defaultName, toList_defaultName] at parts
    obtain ⟨names, ids⟩ := append_cons_inj_right (digits sensor) (digits sensor') parts
    have names : terminus.toList = terminus'.toList := List.append_cancel_right names
    have ids : sensor.toNat = sensor'.toNat := by
      rw [← @Nat.ofDigitChars_ten_toDigits sensor.toNat, ids, Nat.ofDigitChars_ten_toDigits]
    exact ⟨String.toList_inj.mp names, UInt16.toNat_inj.mp ids⟩
  · rintro ⟨rfl, rfl⟩
    rfl

/-- and so does a default path. -/
theorem defaultPath_inj {unit unit' : SensorUnit} {terminus terminus' : String}
    {sensor sensor' : SensorId}
    (same : defaultPath unit terminus sensor = defaultPath unit' terminus' sensor') :
    terminus = terminus' ∧ sensor = sensor' := by
  have plain (unit : SensorUnit) : '/' ∉ unit.pathPart.toList := by
    cases unit with
    | other code => show '/' ∉ "unknown".toList; decide +kernel
    | _ => decide +kernel
  have parts := congrArg String.toList same
  rw [toList_defaultPath, toList_defaultPath] at parts
  have parts := List.append_cancel_left parts
  obtain ⟨_, names⟩ := append_cons_inj_left (plain unit) (plain unit') parts
  exact defaultName_inj.mp (String.toList_inj.mp names)

/-- A default path ends in a digit of the ID. -/
theorem ne_defaultPath {path : String} {last : Char} (ends : path.toList.getLast? = some last)
    (plain : last.isDigit = false) (unit : SensorUnit) (terminus : String) (sensor : SensorId) :
    path ≠ defaultPath unit terminus sensor := by
  rintro rfl
  have parts : (defaultPath unit terminus sensor).toList =
      (root.toList ++ '/' :: (unit.pathPart.toList ++
        '/' :: (terminus.toList ++ "_Sensor_".toList))) ++ Nat.toDigits 10 sensor.toNat := by
    simp [toList_defaultPath, toList_defaultName]
  rw [parts, List.getLast?_append_of_ne_nil _ Nat.toDigits_ne_nil] at ends
  have digit : last.isDigit = true :=
    Nat.isDigit_of_mem_toDigits (by decide) (by decide) (List.mem_of_getLast? ends)
  rw [plain] at digit
  cases digit

/-! ### Where sensors are published -/

/-- A sensor is published where its mapping says, or at a default path of a terminus. -/
def HousedBy (s : NumericSensor) (mapping : Mapping) (terminus : String) : Prop :=
  (∃ d, mapping.sensor? s.key.sensor = some d ∧ s.path = d.path) ∨
    ∃ unit, s.path = defaultPath unit terminus s.key.sensor

theorem HousedBy.congr {terminus : String} (home : s.HousedBy mapping terminus)
    (key : s'.key = s.key) (path : s'.path = s.path) : s'.HousedBy mapping terminus := by
  rwa [HousedBy, key, path]

theorem path_taken (s : NumericSensor) (result : Except Fault Response) :
    (s.taken result).path = s.path := by
  unfold taken
  split
  · unfold after
    split
    · split <;> rfl
    · rfl
    · rfl
  · rfl

theorem HousedBy.taken {terminus : String} (home : s.HousedBy mapping terminus)
    (result : Except Fault Response) : (s.taken result).HousedBy mapping terminus :=
  home.congr taken_key (s.path_taken result)

end NumericSensor

namespace Monitor

/-- A new sensor is published by the mapping in use, or by the name of its terminus. -/
theorem housedBy_newSensor {terminus : Terminus} (known : m.termini.get? tid = some terminus)
    (loaded : m.mapping = {} ∨ m.mapping = mapping) (r : NumericSensorRecord) :
    (m.newSensor tid r).HousedBy mapping terminus.name := by
  have id : (m.newSensor tid r).key.sensor = r.sensor := by rw [newSensor_key]
  rw [NumericSensor.HousedBy, id]
  unfold newSensor
  cases mapped : m.mapping.sensor? r.sensor with
  | none =>
    right
    refine ⟨.ofCode r.baseUnit, ?_⟩
    simp [known, NumericSensor.ofRecord, NumericSensor.defaultPath, NumericSensor.defaultName]
  | some d =>
    left
    rcases loaded with empty | same
    · rw [empty] at mapped
      cases mapped
    · exact ⟨d, same ▸ mapped, rfl⟩

/-- All sensors of a terminus, also those that walks have found, are where they may be. -/
structure Housed (mapping : Mapping) (m : Monitor μ) : Prop where
  loaded : m.mapping = {} ∨ m.mapping = mapping
  termini : ∀ {tid terminus sensor s}, m.termini.get? tid = some terminus →
    terminus.sensors.get? sensor = some s → s.HousedBy mapping terminus.name
  walks : ∀ {tid walk}, m.walks.get? tid = some walk → ∃ terminus,
    m.termini.get? tid = some terminus ∧
      ∀ {sensor s}, walk.sensors.get? sensor = some s → s.HousedBy mapping terminus.name

theorem housed_startWith (mapping : Mapping) (ids : Pools) (policy : RetryPolicy)
    (interval now : Nat) :
    (Monitor.startWith ids policy interval now : Monitor μ).Housed mapping where
  loaded := .inl rfl
  termini known := by cases known
  walks found := by cases found

namespace Housed

theorem congr (housed : m.Housed mapping) (mapped : m'.mapping = m.mapping)
    (termini : m'.termini = m.termini) (walks : m'.walks = m.walks) : m'.Housed mapping where
  loaded := mapped ▸ housed.loaded
  termini known := housed.termini (termini ▸ known)
  walks found := by
    rw [termini]
    exact housed.walks (walks ▸ found)

/-- A terminus that keeps its name, with other sensors that are where they may be. -/
theorem modifyTerminus {f : Terminus → Terminus} (housed : m.Housed mapping)
    (name : ∀ terminus, (f terminus).name = terminus.name)
    (fine : ∀ {terminus sensor s}, m.termini.get? tid = some terminus →
      (f terminus).sensors.get? sensor = some s → s.HousedBy mapping terminus.name) :
    (m.modifyTerminus tid f).Housed mapping where
  loaded := housed.loaded
  termini {tid' terminus sensor s} known listed := by
    rcases Table.get?_modify_some known with ⟨rfl, terminus, before, rfl⟩ | before
    · rw [name]
      exact fine before listed
    · exact housed.termini before listed
  walks {tid' walk} found := by
    obtain ⟨terminus, known, homes⟩ := housed.walks found
    by_cases own : tid' = tid
    · refine ⟨f terminus, ?_, ?_⟩
      · rw [Monitor.modifyTerminus, Table.get?_modify, if_pos own, ← own, known, Option.map_some]
      · rwa [name]
    · refine ⟨terminus, ?_, homes⟩
      rw [Monitor.modifyTerminus, Table.get?_modify, if_neg own, known]

theorem modifyWalk {f : Walk → Walk} (housed : m.Housed mapping)
    (fine : ∀ {terminus walk sensor s}, m.termini.get? tid = some terminus →
      (∀ {sensor s}, walk.sensors.get? sensor = some s → s.HousedBy mapping terminus.name) →
      (f walk).sensors.get? sensor = some s → s.HousedBy mapping terminus.name) :
    Housed mapping { m with walks := m.walks.modify tid f } where
  loaded := housed.loaded
  termini := housed.termini
  walks {tid' walk} found := by
    rcases Table.get?_modify_some found with ⟨rfl, walk, before, rfl⟩ | before
    · obtain ⟨terminus, known, homes⟩ := housed.walks before
      exact ⟨terminus, known, fine known homes⟩
    · exact housed.walks before

theorem eraseWalk (housed : m.Housed mapping) :
    Housed mapping { m with walks := m.walks.erase tid } where
  loaded := housed.loaded
  termini := housed.termini
  walks found := housed.walks (Table.get?_erase_some found)

theorem noted {record : Record} (housed : m.Housed mapping) :
    (m.noted tid record).Housed mapping := by
  unfold Monitor.noted
  split
  next => exact housed
  next r _ =>
    apply housed.modifyWalk
    intro terminus walk sensor s known homes listed
    rcases Table.get?_insert_some listed with ⟨rfl, rfl⟩ | before
    · exact housedBy_newSensor known housed.loaded r
    · exact homes before

theorem finished (housed : m.Housed mapping) : (m.finished tid).Housed mapping := by
  unfold Monitor.finished
  split
  next => exact housed
  next walk found =>
    obtain ⟨terminus, known, homes⟩ := housed.walks found
    have replaced : (m.modifyTerminus tid fun t => { t with sensors := walk.sensors }).Housed
        mapping := by
      apply housed.modifyTerminus
      · exact fun _ => rfl
      · intro terminus' sensor s known' listed
        cases known.symm.trans known'
        exact homes listed
    exact replaced.eraseWalk

theorem recorded {result : Except Fault Response} (housed : m.Housed mapping) :
    (m.recorded tid result).Housed mapping := by
  unfold Monitor.recorded
  split
  next => exact housed
  next =>
    split
    next => exact housed.finished
    next =>
      dsimp only
      split
      next => exact housed.noted.finished
      next => exact housed.noted.modifyWalk fun _ homes listed => homes listed

theorem settled {completion : Completion Purpose} (housed : m.Housed mapping) :
    (m.settled completion).Housed mapping := by
  unfold Monitor.settled
  split
  next key _ =>
    have modified : (m.modifyTerminus key.tid fun t =>
        { t with sensors := t.sensors.modify key.sensor (·.taken completion.result) }).Housed
        mapping := by
      apply housed.modifyTerminus
      · exact fun _ => rfl
      · intro terminus sensor s known listed
        rcases Table.get?_modify_some listed with ⟨rfl, s, before, rfl⟩ | before
        · exact (housed.termini known before).taken _
        · exact housed.termini known before
    exact modified.congr rfl Watch.termini_settled rfl
  next => exact housed.recorded
  next => exact housed

/-- A sensor of a terminus that is replaced by itself after a failure. -/
theorem failed {terminus : Terminus} (housed : m.Housed mapping)
    (known : m.termini.get? s.key.tid = some terminus)
    (listed : terminus.sensors.get? s.key.sensor = some s) :
    Housed mapping { m with toWatch := m.toWatch.setSensor s.key s.fail } := by
  have modified : (m.modifyTerminus s.key.tid fun t =>
      { t with sensors := t.sensors.modify s.key.sensor fun _ => s.fail }).Housed mapping := by
    apply housed.modifyTerminus
    · exact fun _ => rfl
    · intro terminus' sensor s' known' listed'
      cases known.symm.trans known'
      rcases Table.get?_modify_some listed' with ⟨_, _, _, rfl⟩ | before
      · exact (housed.termini known listed).congr rfl rfl
      · exact housed.termini known before
  exact modified

theorem move {s s' : Scene μ} {deeds : List Deed} (move : Move s deeds s')
    (loaded : ∀ {mapping'}, .mapped mapping' ∈ deeds → mapping' = mapping)
    (housed : s.monitor.Housed mapping) : s'.monitor.Housed mapping := by
  cases move with
  | aside alike => exact housed.congr alike.mapping alike.termini alike.walks
  | @placed m _ tid _ _ unknown =>
    constructor
    case loaded => exact housed.loaded
    case termini =>
      intro tid' terminus sensor s known listed
      rcases Table.get?_insert_some known with ⟨rfl, rfl⟩ | before
      · cases listed
      · exact housed.termini before listed
    case walks =>
      intro tid' walk found
      obtain ⟨terminus, known, homes⟩ := housed.walks found
      have other : tid' ≠ tid := by
        rintro rfl
        cases unknown.symm.trans known
      exact ⟨terminus, by rw [Table.get?_insert, if_neg other, known], homes⟩
  | reached =>
    exact housed.modifyTerminus (fun _ => rfl) fun known listed => housed.termini known listed
  | lost =>
    apply housed.modifyTerminus
    · exact fun _ => rfl
    · intro terminus sensor s known listed
      rw [Table.get?_mapValues] at listed
      obtain ⟨s, before, rfl⟩ := Option.map_eq_some_iff.mp listed
      exact (housed.termini known before).congr rfl rfl
  | @removed m _ tid =>
    constructor
    case loaded => exact housed.loaded
    case termini =>
      intro tid' terminus sensor s known listed
      exact housed.termini (Table.get?_erase_some known) listed
    case walks =>
      intro tid' walk found
      have other : tid' ≠ tid := by
        rintro rfl
        simp [Table.get?_erase] at found
      obtain ⟨terminus, known, homes⟩ := housed.walks (Table.get?_erase_some found)
      exact ⟨terminus, by rw [Table.get?_erase, if_neg other, known], homes⟩
  | mapped => exact ⟨.inr (loaded List.mem_cons_self), housed.termini, housed.walks⟩
  | settled => exact housed.settled
  | begun known =>
    refine ⟨housed.loaded, housed.termini, ?_⟩
    intro tid walk found
    rcases Table.get?_insert_some found with ⟨rfl, rfl⟩ | before
    · exact ⟨_, known, fun listed => by cases listed⟩
    · exact housed.walks before
  | strayed => exact housed.eraseWalk
  | asked =>
    exact modifyWalk (m := Monitor.withRequests _ _) (housed.congr rfl rfl rfl)
      fun _ homes listed => homes listed
  | unsent => exact finished (m := Monitor.withRequests _ _) (housed.congr rfl rfl rfl)
  | failed known listed =>
    exact failed (m := Monitor.withRequests _ _) (housed.congr rfl rfl rfl) known listed
  | _ => exact housed.congr rfl rfl rfl

end Housed

end Monitor

/-! ### Equal paths -/

/-- Mappings of sensors to paths that differ, and are no default paths. -/
structure Mapping.Distinct (mapping : Mapping) : Prop where
  paths : (mapping.sensors.map (·.path)).Nodup
  special : ∀ d ∈ mapping.sensors, ∀ unit terminus sensor,
    d.path ≠ NumericSensor.defaultPath unit terminus sensor

theorem Mapping.Distinct.sensor?_inj {sensor sensor' : SensorId} {d d' : SensorMapping}
    (distinct : mapping.Distinct) (found : mapping.sensor? sensor = some d)
    (found' : mapping.sensor? sensor' = some d') (same : d.path = d'.path) : sensor = sensor' := by
  have one : d = d' := List.inj_on_of_nodup_map distinct.paths (List.mem_of_find?_eq_some found)
    (List.mem_of_find?_eq_some found') same
  have own := List.find?_some found
  have own' := List.find?_some found'
  simp only [Bool.and_eq_true, beq_iff_eq] at own own'
  rw [← own.1, ← own'.1, one]

/-- Two sensors are published at the path of one mapping. -/
def NumericSensor.Shares (mapping : Mapping) (s s' : NumericSensor) : Prop :=
  s.key.sensor = s'.key.sensor ∧
    ∃ d, mapping.sensor? s.key.sensor = some d ∧ s.path = d.path ∧ s'.path = d.path

/-- Of two sensors with one path, either both have it from one mapping, or both have the default
path of termini with one name. -/
theorem NumericSensor.HousedBy.shares {terminus terminus' : String} (distinct : mapping.Distinct)
    (home : s.HousedBy mapping terminus) (home' : s'.HousedBy mapping terminus')
    (same : s.path = s'.path) :
    s.Shares mapping s' ∨ s.key.sensor = s'.key.sensor ∧ terminus = terminus' := by
  rcases home with ⟨d, mapped, path⟩ | ⟨unit, path⟩
  · rcases home' with ⟨d', mapped', path'⟩ | ⟨unit', path'⟩
    · have one : d.path = d'.path := by rw [← path, ← path', same]
      exact .inl ⟨distinct.sensor?_inj mapped mapped' one, d, mapped, path, same ▸ path⟩
    · have default := path.symm.trans (same.trans path')
      exact (distinct.special d (List.mem_of_find?_eq_some mapped) _ _ _ default).elim
  · rcases home' with ⟨d', mapped', path'⟩ | ⟨unit', path'⟩
    · have default := path'.symm.trans (same.symm.trans path)
      exact (distinct.special d' (List.mem_of_find?_eq_some mapped') _ _ _ default).elim
    · obtain ⟨names, ids⟩ := defaultPath_inj (path.symm.trans (same.trans path'))
      exact .inr ⟨ids, names⟩

namespace Monitor

/-- No two termini have one name. -/
def NamedApart (m : Monitor μ) : Prop := (m.termini.values.map (·.name)).Nodup

instance (m : Monitor μ) : Decidable m.NamedApart :=
  inferInstanceAs (Decidable (m.termini.values.map (·.name)).Nodup)

theorem NamedApart.tid_inj {tid' : Tid} {terminus terminus' : Terminus} (apart : m.NamedApart)
    (known : m.termini.get? tid = some terminus) (known' : m.termini.get? tid' = some terminus')
    (same : terminus.name = terminus'.name) : tid = tid' := by
  rw [NamedApart, Table.values, List.map_map] at apart
  have one : (tid, terminus) = (tid', terminus') :=
    List.inj_on_of_nodup_map apart (Table.mem_entries_iff.mpr known)
      (Table.mem_entries_iff.mpr known') same
  exact congrArg Prod.fst one

/-- Two registered sensors have one path just when they are the same, or are of different termini
and have it from one mapping. -/
theorem Housed.path_eq_iff (housed : m.Housed mapping) (keyed : m.Keyed)
    (distinct : mapping.Distinct) (apart : m.NamedApart) (mem : s ∈ m.sensors)
    (mem' : s' ∈ m.sensors) :
    s.path = s'.path ↔ s = s' ∨ s.key.tid ≠ s'.key.tid ∧ s.Shares mapping s' := by
  constructor
  · intro same
    obtain ⟨⟨tid, id⟩, known⟩ := mem_sensors.mp mem
    obtain ⟨⟨tid', id'⟩, known'⟩ := mem_sensors.mp mem'
    obtain ⟨terminus, at_, listed⟩ := Option.bind_eq_some_iff.mp known
    obtain ⟨terminus', at', listed'⟩ := Option.bind_eq_some_iff.mp known'
    have key : s.key = ⟨tid, id⟩ := keyed.termini at_ listed
    have key' : s'.key = ⟨tid', id'⟩ := keyed.termini at' listed'
    have shares := (housed.termini at_ listed).shares distinct (housed.termini at' listed') same
    -- Sensors of one terminus are told apart by their IDs, which are the same in both cases.
    have one (tids : tid = tid') : s = s' := by
      have ids : s.key.sensor = s'.key.sensor := by
        rcases shares with ⟨ids, _⟩ | ⟨ids, _⟩
        · exact ids
        · exact ids
      rw [key, key'] at ids
      cases tids
      cases ids
      exact Option.some.inj (known.symm.trans known')
    rcases shares with shares | ⟨_, names⟩
    · rw [key, key']
      by_cases tids : tid = tid'
      · exact .inl (one tids)
      · exact .inr ⟨tids, shares⟩
    · exact .inl (one (apart.tid_inj at_ at' names))
  · rintro (rfl | ⟨_, _, d, _, path, path'⟩)
    · rfl
    · rw [path, path']

end Monitor

end TerminusMonitor
