import TerminusMonitor.Proofs.Registry
import TerminusMonitor.Proofs.Sensing
import TerminusMonitor.Proofs.Strides
import TerminusMonitor.Simulation.Peer
import TerminusMonitor.Simulation.Scripted

/-!
The sensors of a terminus that cannot be reached.

When a terminus is noted as unreachable its sensors become unavailable. It is not polled then,
but what was asked before may still be answered, and a walk may go on. Neither looks at whether
the terminus can be reached.

* `Monitor.Misleads`: a sensor of an unreachable terminus is available or has a value;
* `Monitor.Stride.revives`: what makes a sensor so in one step;
* `misleads_iff_revived`: a sensor is so after a run just when, with its terminus unreachable, a
  reading or a walk made it so and nothing has changed it since;
* `late_answers_taken`: a late reading and a late record do.
-/

namespace TerminusMonitor

variable {μ : Type} {m m' : Monitor μ} {key : SensorKey} {s : NumericSensor} {tid : Tid}

/-! ### Sensors without a terminus -/

namespace NumericSensor

/-- Whether a sensor is not available and has no value. -/
def IsLost (s : NumericSensor) : Prop := s.available = false ∧ s.value.isNaN = true

theorem isLost_lose (s : NumericSensor) : s.lose.IsLost := ⟨rfl, isNaN_noValue⟩

theorem isLost_fail (lost : s.available = false) : s.fail.IsLost := ⟨lost, isNaN_noValue⟩

/-- Only a reading that tells that the sensor is there makes it available. -/
theorem IsLost.taken {result : Except Fault Response} (lost : s.IsLost) :
    (s.taken result).IsLost ∨
      ∃ answer, Correlator.understood ReadSensor.parse result = .ok answer ∧
        answer.operation ≠ .unavailable := by
  unfold NumericSensor.taken
  cases read : Correlator.understood ReadSensor.parse result with
  | error fault => exact .inl (isLost_fail lost.1)
  | ok answer =>
    by_cases there : answer.operation = .unavailable
    · left
      simp only [NumericSensor.after, there]
      exact ⟨rfl, isNaN_noValue⟩
    · exact .inr ⟨answer, rfl, there⟩

end NumericSensor

namespace Monitor

/-- A sensor is available or has a value, though its terminus cannot be reached. -/
def Misleads (m : Monitor μ) (key : SensorKey) : Prop :=
  ∃ terminus s, m.termini.get? key.tid = some terminus ∧ terminus.reachable = false ∧
    terminus.sensors.get? key.sensor = some s ∧ ¬ s.IsLost

/-- A step at which a sensor may become available whether or not its terminus can be reached. -/
inductive Revives (key : SensorKey) (m m' : Monitor μ) : Prop where
  /-- A reading is taken in that tells that the sensor is there. -/
  | reading {completion : Completion Purpose} {answer : ReadSensor.Answer}
      (asked : completion.cookie = .reading key)
      (answers : Correlator.understood ReadSensor.parse completion.result = .ok answer)
      (there : answer.operation ≠ .unavailable)
      (taken : m' = m.settled completion)
  /-- A walk ends, and the sensors that it found are registered. -/
  | walk {walk : Walk} (running : m.walks.get? key.tid = some walk)
      (ended : m'.walks.get? key.tid = none)

/-! ### Single steps -/

theorem Misleads.of_termini (misleads : m'.Misleads key) (same : m'.termini = m.termini) :
    m.Misleads key := by
  obtain ⟨terminus, s, known, rest⟩ := misleads
  exact ⟨terminus, s, same ▸ known, rest⟩

/-- When one terminus is changed, the others mislead as before. -/
theorem Misleads.of_modify {f : Terminus → Terminus}
    (misleads : (m.modifyTerminus tid f).Misleads key) :
    m.Misleads key ∨ key.tid = tid ∧ ∃ terminus s, m.termini.get? tid = some terminus ∧
      (f terminus).reachable = false ∧ (f terminus).sensors.get? key.sensor = some s ∧
      ¬ s.IsLost := by
  obtain ⟨terminus, s, known, lost, listed, misleads⟩ := misleads
  rcases Table.get?_modify_some known with ⟨own, before, found, rfl⟩ | found
  · exact .inr ⟨own, before, s, found, lost, listed, misleads⟩
  · exact .inl ⟨terminus, s, found, lost, listed, misleads⟩

/-- A sensor that has failed misleads only if it did before. -/
theorem Misleads.of_fail {c : Correlator Purpose} {key' : SensorKey}
    (known : m.sensor? key' = some s)
    (misleads : Misleads { m with toWatch := (m.withRequests c).setSensor key' s.fail } key) :
    m.Misleads key := by
  have modified : ((m.withRequests c).modifyTerminus key'.tid fun t =>
      { t with sensors := t.sensors.modify key'.sensor fun _ => s.fail }).Misleads key := misleads
  rcases modified.of_modify with before | ⟨own, terminus, s', found, lost, listed, misleads⟩
  · exact before.of_termini rfl
  · rcases Table.get?_modify_some listed with ⟨same, s₀, before, rfl⟩ | before
    · refine ⟨terminus, s₀, own ▸ found, lost, same ▸ before, ?_⟩
      have here : m.sensor? key' = some s₀ := Option.bind_eq_some_iff.mpr ⟨terminus, found, before⟩
      cases known.symm.trans here
      exact fun lost => misleads (NumericSensor.isLost_fail lost.1)
    · exact ⟨terminus, s', own ▸ found, lost, before, misleads⟩

/-- Arranging things and sending requests revives no sensor. -/
theorem Misleads.of_move {s s' : Scene μ} {deeds : List Deed} (move : Move s deeds s')
    (none : ∀ deed ∈ deeds, deed.concludes = false) (misleads : s'.monitor.Misleads key) :
    s.monitor.Misleads key := by
  cases move with
  | aside alike => exact misleads.of_termini alike.termini
  | @placed m _ tid eid name unknown =>
    obtain ⟨terminus, s, known, lost, listed, misleads⟩ := misleads
    rcases Table.get?_insert_some known with ⟨_, rfl⟩ | before
    · cases lost
    · exact ⟨terminus, s, before, lost, listed, misleads⟩
  | reached =>
    rcases misleads.of_modify with before | ⟨_, _, _, _, lost, _⟩
    · exact before
    · cases lost
  | lost =>
    rcases misleads.of_modify with before | ⟨_, terminus, s, _, _, listed, misleads⟩
    · exact before
    · rw [Table.get?_mapValues] at listed
      obtain ⟨s, _, rfl⟩ := Option.map_eq_some_iff.mp listed
      exact absurd s.isLost_lose misleads
  | removed =>
    obtain ⟨terminus, s, known, rest⟩ := misleads
    exact ⟨terminus, s, Table.get?_erase_some known, rest⟩
  | settled => simp [Deed.concludes] at none
  | unsent => simp [Deed.concludes] at none
  | failed known listed =>
    exact misleads.of_fail (Option.bind_eq_some_iff.mpr ⟨_, known, listed⟩)
  | _ => exact misleads.of_termini rfl

theorem Misleads.of_moves {s s' : Scene μ} {deeds : List Deed} (moves : Moves s deeds s')
    (none : ∀ deed ∈ deeds, deed.concludes = false) (misleads : s'.monitor.Misleads key) :
    s.monitor.Misleads key := by
  induction moves with
  | done => exact misleads
  | step move _ ih =>
    have later := ih (fun deed mem => none deed (List.mem_append_right _ mem)) misleads
    exact later.of_move move fun deed mem => none deed (List.mem_append_left _ mem)

/-- When a walk ends, the sensors that it found mislead if its terminus is unreachable. -/
theorem Misleads.of_finished (misleads : (m.finished tid).Misleads key) :
    m.Misleads key ∨ key.tid = tid ∧ ∃ walk, m.walks.get? tid = some walk := by
  unfold finished at misleads
  split at misleads
  next => exact .inl misleads
  next walk found =>
    rcases of_modify misleads with before | ⟨own, _⟩
    · exact .inl before
    · exact .inr ⟨own, walk, found⟩

/-- A record that comes may end the walk. -/
theorem Misleads.of_recorded {result : Except Fault Response}
    (misleads : (m.recorded tid result).Misleads key) :
    m.Misleads key ∨ m.Revives key (m.recorded tid result) := by
  have ends {walk : Walk} {m' : Monitor μ} (running : m.walks.get? tid = some walk)
      (termini : m'.termini = m.termini) (misleads : (m'.finished tid).Misleads key) :
      m.Misleads key ∨ m.Revives key (m'.finished tid) := by
    rcases misleads.of_finished with before | ⟨rfl, _⟩
    · exact .inl (before.of_termini termini)
    · exact .inr (.walk running (by rw [walks_finished, if_pos rfl]))
  unfold recorded at misleads ⊢
  cases found : m.walks.get? tid with
  | none =>
    rw [found] at misleads
    exact .inl misleads
  | some walk =>
    simp only [found] at misleads ⊢
    split at misleads
    next => exact ends found rfl misleads
    next record next _ =>
      have noted : (m.noted tid record).termini = m.termini := by
        unfold Monitor.noted
        split <;> rfl
      split at misleads
      next last =>
        rw [if_pos last]
        exact ends found noted misleads
      next => exact .inl (misleads.of_termini noted)

/-- An outcome that is taken in revives a sensor only as a reading that tells that it is there, or
at the end of a walk. -/
theorem Misleads.of_settled {completion : Completion Purpose}
    (misleads : (m.settled completion).Misleads key) :
    m.Misleads key ∨ m.Revives key (m.settled completion) := by
  cases purpose : completion.cookie with
  | reading key' =>
    have modified : (m.modifyTerminus key'.tid fun t =>
        { t with sensors := t.sensors.modify key'.sensor (·.taken completion.result) }).Misleads
          key := by
      refine misleads.of_termini ?_
      simp only [settled, purpose]
      exact Watch.termini_settled
    rcases modified.of_modify with before | ⟨own, terminus, s', found, lost, listed, misleads⟩
    · exact .inl before
    · rcases Table.get?_modify_some listed with ⟨same, s, before, rfl⟩ | before
      · have asked : key' = key := SensorKey.eq_iff.mpr ⟨own.symm, same.symm⟩
        by_cases wasLost : s.IsLost
        · rcases wasLost.taken with stays | ⟨answer, answers, there⟩
          · exact absurd stays misleads
          · exact .inr (.reading (asked ▸ purpose) answers there rfl)
        · exact .inl ⟨terminus, s, own ▸ found, lost, same ▸ before, wasLost⟩
      · exact .inl ⟨terminus, s', own ▸ found, lost, before, misleads⟩
  | record tid handle =>
    simp only [settled, purpose] at misleads ⊢
    exact misleads.of_recorded
  | effecter path property =>
    simp only [settled, purpose] at misleads
    exact .inl misleads

/-- What makes a sensor mislead in one step. -/
theorem Stride.revives {loads : Mapping → Prop} (stride : m.Stride loads m')
    (misleads : m'.Misleads key) : m.Misleads key ∨ m.Revives key m' := by
  cases stride with
  | settled taken =>
    subst taken
    exact misleads.of_settled
  | unsent move =>
    cases move with
    | unsent known found waiting free =>
      rcases misleads.of_finished with before | ⟨rfl, _⟩
      · exact .inl (before.of_termini rfl)
      · exact .inr (.walk found (by rw [walks_finished, if_pos rfl]))
  | other moves none _ => exact .inl (misleads.of_moves moves none)

end Monitor

/-! ### Runs -/

/-- What holds at the end of a list has held all the time, or from some point on. -/
theorem exists_onset {α : Type} {holds : α → Prop} {a z : α} {rest : List α}
    (last : (a :: rest).getLast? = some z) (end_ : holds z) :
    (∀ b ∈ a :: rest, holds b) ∨ ∃ before b c after, a :: rest = before ++ b :: c :: after ∧
      ¬ holds b ∧ ∀ d ∈ c :: after, holds d := by
  induction rest generalizing a with
  | nil =>
    cases last
    exact .inl (List.forall_mem_singleton.mpr end_)
  | cons b rest ih =>
    rcases ih (List.getLast?_cons_cons ▸ last) with all | ⟨before, c, d, after, split, onset⟩
    · by_cases first : holds a
      · exact .inl (List.forall_mem_cons.mpr ⟨first, all⟩)
      · exact .inr ⟨[], a, b, rest, rfl, first, all⟩
    · exact .inr ⟨a :: before, c, d, after, congrArg (a :: ·) split, onset⟩

/-- After every run, a sensor is available or has a value although its terminus cannot be reached
just when at some moment a reading that told that it is there was taken in, or a walk through its
terminus ended, and has made it so, and so it has been ever since. -/
theorem misleads_iff_revived [UpdateManager μ] (ids : Pools) (policy : RetryPolicy)
    (interval now : Nat) (turns : List (Turn μ)) (key : SensorKey) :
    let start : Monitor μ := .startWith ids policy interval now
    (Turn.run turns start).Misleads key ↔
      ∃ before x y after, Turn.moments turns start = before ++ x :: y :: after ∧
        ¬ x.state.Misleads key ∧ x.state.Revives key y.state ∧
        ∀ z ∈ y :: after, z.state.Misleads key := by
  intro start
  have chain : (Turn.moments turns start).IsChain (Monitor.Strides (Turn.Loads turns)) :=
    Turn.strides_moments turns (Monitor.keyed_startWith ids policy interval now)
  have last := Turn.getLast?_moments turns start
  constructor
  · intro misleads
    have onset : (∀ x ∈ Turn.moments turns start, x.state.Misleads key) ∨
        ∃ before x y after, Turn.moments turns start = before ++ x :: y :: after ∧
          ¬ x.state.Misleads key ∧ ∀ z ∈ y :: after, z.state.Misleads key :=
      exists_onset last misleads
    rcases onset with all | ⟨before, x, y, after, split, notYet, since⟩
    · -- At the start there is no terminus.
      obtain ⟨terminus, s, known, _⟩ := all _ List.mem_cons_self
      cases known
    · refine ⟨before, x, y, after, split, notYet, ?_, since⟩
      rw [split] at chain
      have strides : Monitor.Strides (Turn.Loads turns) x y :=
        (List.isChain_append_cons_cons.mp chain).2.1
      have misleads := since y List.mem_cons_self
      exact (strides.2.revives misleads).resolve_left notYet
  · rintro ⟨before, x, y, after, split, _, _, since⟩
    have later : (y :: after).getLast? = some ⟨Turn.run turns start, Turn.history turns start⟩ := by
      rw [← last, split, List.getLast?_append_of_ne_nil _ (List.cons_ne_nil _ _),
        List.getLast?_cons_cons]
    exact since _ (List.mem_of_getLast? later)

/-- A terminus is lost while one of its sensors is asked for a reading, and the answer comes: the
sensor is there, but disabled. -/
def readLate : List (Turn Scripted) :=
  [{ operation := .add 1 8 "Rack" },
    { operation := .discover 1 },
    { operation := .message 8 (FetchRecord.answering 0 0 (.temperature 1)) },
    { operation := .startPolling },
    { operation := .update 0 },
    { operation := .markUnreachable 1 },
    { operation := .message 8 (ReadSensor.answering 0 .disabled (.u8 0)) },
    { operation := .update 5000 }]

/-- A terminus is lost during a walk, and the last record comes. -/
def foundLate : List (Turn Scripted) :=
  [{ operation := .add 1 8 "Rack" },
    { operation := .discover 1 },
    { operation := .markUnreachable 1 },
    { operation := .message 8 (FetchRecord.answering 0 0 (.temperature 1)) }]

/-- The sensor that was read is available, and stays so though it is not polled, and so is the one
that was found. -/
theorem late_answers_taken :
    let start : Monitor Scripted := .startWith {} {} 250 0
    let read := Turn.run readLate start
    let found := Turn.run foundLate start
    (read.termini.get? 1).map (·.reachable) = some false ∧
      (read.sensor? ⟨1, 1⟩).map (·.available) = some true ∧ read.pending.isEmpty = true ∧
      (found.termini.get? 1).map (·.reachable) = some false ∧
      (found.sensor? ⟨1, 1⟩).map (·.available) = some true := by
  decide +kernel

end TerminusMonitor
