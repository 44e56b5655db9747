import TerminusMonitor.Proofs.Pace
import TerminusMonitor.Simulation.Peer
import TerminusMonitor.Simulation.Scripted

/-!
The time between two requests for the reading of a sensor.

A sensor is asked when its update interval is over since the time noted for it. That time stays
noted through whatever a run does, unless the terminus is removed (`Monitor.Noted.run`), and ticks
are as far apart as polling has them, unless it is started anew (`Turn.apart_run`).

* `Watch.waited_of_mem_polls`: a sensor that is asked has waited for its update interval;
* `readings_spaced`: so two requests for its reading are at least that far apart, and as far as
  ticks are, as long as 64 bits can tell the times;
* `Poller.isDue_iff_of_asked`: a sensor whose interval has an end that they cannot tell is due at
  each tick. So is that of `asked_again_early`.
-/

namespace TerminusMonitor

variable {μ : Type} {link : Link} {journal : Journal}

/-! ### Sensors that are due -/

/-- The milliseconds of an update interval have 64 bits. -/
theorem NumericSensor.milliseconds_lt (seconds : Real32) : milliseconds seconds < UInt64.size := by
  unfold milliseconds
  dsimp only
  split
  next => decide
  next => exact Nat.lt_of_le_of_lt (Nat.min_le_right ..) (by decide)

/-- A sensor that was asked is due when its update interval is over, unless its reading is
outstanding; and at any time if the end of the interval has more than 64 bits. -/
theorem Poller.isDue_iff_of_asked {p : Poller} {s : NumericSensor} {now last : Nat}
    (asked : p.lastPoll.get? s.key = some last) (past : last ≤ now)
    (word : s.updateInterval < UInt64.size) :
    p.isDue s now = true ↔ p.outstanding.contains s.key = false ∧
      (s.updateInterval = 0 ∨ last + s.updateInterval ≤ now ∨
        UInt64.size ≤ last + s.updateInterval) := by
  have waited : timeAfter last s.updateInterval ≤ now ↔
      last + s.updateInterval ≤ now ∨ UInt64.size ≤ last + s.updateInterval := by
    rcases Nat.lt_or_ge (last + s.updateInterval) UInt64.size with fits | wraps
    · rw [timeAfter_of_lt fits]
      exact (or_iff_left (Nat.not_le_of_lt fits)).symm
    · exact iff_of_true ((timeAfter_le_self wraps word).trans past) (.inr wraps)
  simp [isDue, asked, waited]

/-- A sensor that is due was last asked its update interval before. -/
theorem Poller.waited_of_isDue {p : Poller} {s : NumericSensor} {now last : Nat}
    (due : p.isDue s now = true) (asked : p.lastPoll.get? s.key = some last) :
    s.updateInterval = 0 ∨ timeAfter last s.updateInterval ≤ now := by
  rw [isDue, asked] at due
  simpa using (Bool.and_eq_true_iff.mp due).2

namespace Watch

variable {w : Watch Purpose} {now : Nat}

/-- A look at a sensor asks that sensor, if it is due. -/
theorem of_mem_polling {eid : Eid} {s : NumericSensor} {deed : Deed}
    (mem : deed ∈ w.polling link journal now eid s) :
    w.poller.isDue s now = true ∧ ∃ key, deed = .polled key s.key := by
  unfold polling at mem
  split at mem
  next due =>
    split at mem
    next => cases mem
    next =>
      dsimp only at mem
      split at mem
      next => exact ⟨due, _, List.mem_singleton.mp mem⟩
      next => cases mem
  next => cases mem

/-- A look at another sensor leaves the time that is noted for a sensor as it is. -/
theorem lastPoll_pollSensor {eid : Eid} {s : NumericSensor} {sensor : SensorKey}
    (other : sensor ≠ s.key) :
    Act.Ends (pollSensor .reading now eid s) w link journal fun _ w' _ =>
      w'.poller.lastPoll.get? sensor = w.poller.lastPoll.get? sensor := by
  refine (pace_pollSensor w link journal now eid s).mono ?_
  intro _ w' _ paced
  have kept : .removed sensor.tid ∉ w.polling link journal now eid s := by
    intro mem
    obtain ⟨_, _, eq⟩ := of_mem_polling mem
    cases eq
  have unasked : ¬ (w.polling link journal now eid s).any (·.asks sensor) = true := by
    rw [Deed.any_asks]
    rintro ⟨key, mem⟩
    obtain ⟨_, _, eq⟩ := of_mem_polling mem
    cases eq
    exact other rfl
  have same : w'.pace.lastPoll = (w.pace.noting now (w.polling link journal now eid s)).lastPoll :=
    congrArg Pace.lastPoll paced
  have noted : w'.poller.lastPoll.get? sensor =
      if (w.polling link journal now eid s).any (·.asks sensor) then some now
      else w.poller.lastPoll.get? sensor :=
    (congrArg (·.get? sensor) same).trans (Pace.noting_get? kept)
  rwa [if_neg unasked] at noted

/-- A sensor that is asked has waited for its update interval. -/
theorem waited_of_mem_polls {sensors : List (Eid × NumericSensor)} {key : RequestKey}
    {sensor : SensorKey} (once : sensors.Pairwise fun e e' => e'.2.key ≠ e.2.key)
    (mem : .polled key sensor ∈ w.polls link journal now sensors) :
    ∃ e ∈ sensors, e.2.key = sensor ∧ ∀ last, w.poller.lastPoll.get? sensor = some last →
      e.2.updateInterval = 0 ∨ timeAfter last e.2.updateInterval ≤ now := by
  induction sensors generalizing w journal with
  | nil => cases mem
  | cons e rest ih =>
    obtain ⟨apart, onceLater⟩ := List.pairwise_cons.mp once
    rw [polls, List.mem_append] at mem
    rcases mem with first | later
    · obtain ⟨due, _, eq⟩ := of_mem_polling first
      cases eq
      exact ⟨e, List.mem_cons_self, rfl, fun last => Poller.waited_of_isDue due⟩
    · split at later
      next => cases later
      next =>
        -- The look before noted the time of another sensor, if of any.
        obtain ⟨e', listed, rfl, waited⟩ := ih onceLater later
        have same : ((pollSensor .reading now e.1 e.2).state w link journal).poller.lastPoll.get?
            e'.2.key = w.poller.lastPoll.get? e'.2.key :=
          Act.ends_iff.mp (lastPoll_pollSensor (apart e' listed))
        rw [same] at waited
        exact ⟨e', List.mem_cons_of_mem _ listed, rfl, waited⟩

end Watch

namespace Monitor

variable {m : Monitor μ} {now : Nat}

/-- The sensor that an update asks is there when the tick comes, and has waited. -/
theorem Keyed.waited (keyed : m.Keyed) (forward : m.clock ≤ now) {key : RequestKey}
    {sensor : SensorKey}
    (asked : .polled key sensor ∈ Turn.deeds { operation := .update now, link } m) :
    ∃ s, (m.atTick link now).sensor? sensor = some s ∧
      ∀ last, m.poller.lastPoll.get? sensor = some last →
        s.updateInterval = 0 ∨ timeAfter last s.updateInterval ≤ now := by
  have keyed : (m.atTick link now).Keyed := keyed.atTick
  have before : (m.atTick link now).pace = { m.pace with clock := now } :=
    Act.ends_iff.mp (pace_beforeTick forward)
  have noted : (m.atTick link now).poller.lastPoll = m.poller.lastPoll :=
    congrArg Pace.lastPoll before
  have ticked := Turn.mem_ticked_of_polled asked
  simp only [Operation.ticked] at ticked
  split at ticked
  next => cases ticked
  next =>
    unfold Watch.ticking at ticked
    split at ticked
    next =>
      obtain ⟨e, listed, rfl, waited⟩ := Watch.waited_of_mem_polls keyed.polled_once ticked
      obtain ⟨terminus, known, filed, _⟩ := keyed.lists listed
      refine ⟨e.2, ?_, ?_⟩
      · rw [Watch.sensor?, known]
        exact filed
      · rw [← noted]
        exact waited
    next => cases ticked

end Monitor

/-! ### What a run keeps -/

/-- A sensor was asked at some time since a start, and that is noted. -/
structure Monitor.Noted (m : Monitor μ) (sensor : SensorKey) (start : Nat) : Prop where
  clock : start ≤ m.clock
  asked : ∃ last, m.poller.lastPoll.get? sensor = some last ∧ start ≤ last ∧ last ≤ m.clock

section Runs

variable [UpdateManager μ] {m : Monitor μ} {t : Turn μ} {turns : List (Turn μ)}
  {sensor : SensorKey} {start : Nat}

namespace Monitor.Noted

/-- It stays noted when the sensor is asked again, and whatever else a turn does but remove the
terminus. -/
theorem after (noted : m.Noted sensor start) (kept : .removed sensor.tid ∉ t.deeds m) :
    (t.after m).Noted sensor start := by
  have onward : m.clock ≤ (t.after m).clock := (t.pace_after m).clock_le
  have clock : start ≤ (t.after m).clock := Nat.le_trans noted.clock onward
  refine ⟨clock, ?_⟩
  rw [Turn.lastPoll_after kept]
  split
  next => exact ⟨_, rfl, clock, Nat.le_refl _⟩
  next =>
    obtain ⟨last, asked, since, past⟩ := noted.asked
    exact ⟨last, asked, since, past.trans onward⟩

theorem run (noted : m.Noted sensor start) (kept : .removed sensor.tid ∉ Turn.trace turns m) :
    (Turn.run turns m).Noted sensor start := by
  induction turns generalizing m with
  | nil => exact noted
  | cons t rest ih =>
    obtain ⟨keptFirst, keptRest⟩ := not_or.mp (mt List.mem_append.mpr kept)
    exact ih (noted.after keptFirst) keptRest

end Monitor.Noted

namespace Turn

/-- Whether turns start polling when it has stopped. -/
def Restarts : List (Turn μ) → Monitor μ → Prop
  | [], _ => False
  | t :: rest, m =>
    t.operation = .startPolling ∧ m.poller.running = false ∨ Restarts rest (t.after m)

/-- The time between ticks is that of the start of the run. -/
theorem interval_run : (run turns m).poller.interval = m.poller.interval := by
  induction turns generalizing m with
  | nil => rfl
  | cons t rest ih => exact (ih (m := t.after m)).trans (t.pace_after m).interval

/-- Unless polling is started anew, an interval passes between a start and the next tick that was
to come so much later. -/
theorem apart_run (unbroken : ¬ Restarts turns m)
    (apart : start + m.poller.interval ≤ m.poller.nextTick ∨ start + m.poller.interval ≤ m.clock) :
    start + m.poller.interval ≤ (run turns m).poller.nextTick ∨
      start + m.poller.interval ≤ (run turns m).clock := by
  induction turns generalizing m with
  | nil => exact apart
  | cons t rest ih =>
    obtain ⟨running, unbroken⟩ := not_or.mp unbroken
    have step := t.pace_after m
    have same : (t.after m).poller.interval = m.poller.interval := step.interval
    have onward : m.clock ≤ (t.after m).clock := step.clock_le
    have apart' : start + (t.after m).poller.interval ≤ (t.after m).poller.nextTick ∨
        start + (t.after m).poller.interval ≤ (t.after m).clock := by
      rw [same]
      rcases apart with toCome | passed
      · rcases step.nextTick with stays | starts | came
        · exact .inl (Nat.le_trans toCome (Nat.le_of_eq stays.symm))
        · exact absurd starts running
        · exact .inr (Nat.le_trans toCome came)
      · exact .inr (Nat.le_trans passed onward)
    rw [← same]
    exact ih unbroken apart'

end Turn

/-! ### Spacing -/

/-- If ticks at two times of a run ask for the reading of a sensor, and its terminus is not
removed in between, be it for a move, then at least the update interval of the sensor at the
second tick lies between them, provided that 64 bits can tell the time at which it is over since
the sensor was last asked; and, unless polling is started anew, at least the time between ticks. In
between requests may expire, not be sent or find no instance ID, sensors may be discovered again,
and ticks may be late. -/
theorem readings_spaced (ids : Pools) (policy : RetryPolicy) (interval start : Nat)
    (before between : List (Turn μ)) (now₁ now₂ : Nat) (link₁ link₂ : Link)
    (key₁ key₂ : RequestKey) (sensor : SensorKey) :
    let m₁ := Turn.run before (Monitor.startWith ids policy interval start)
    let first : Turn μ := { operation := .update now₁, link := link₁ }
    let m₂ := Turn.run between (first.after m₁)
    let second : Turn μ := { operation := .update now₂, link := link₂ }
    .polled key₁ sensor ∈ first.deeds m₁ →
      .polled key₂ sensor ∈ second.deeds m₂ →
      .removed sensor.tid ∉ Turn.trace between (first.after m₁) →
      (∃ s last, (m₂.atTick link₂ now₂).sensor? sensor = some s ∧
        m₂.poller.lastPoll.get? sensor = some last ∧ now₁ ≤ last ∧ last ≤ now₂ ∧
        (last + s.updateInterval < UInt64.size → now₁ + s.updateInterval ≤ now₂)) ∧
      (¬ Turn.Restarts between (first.after m₁) → now₁ + interval < UInt64.size →
        now₁ + interval ≤ now₂) := by
  intro m₁ first m₂ second asked₁ asked₂ kept
  have step₁ := first.pace_after m₁
  obtain ⟨_, _, clock₁, nextTick₁⟩ := step₁.of_polled asked₁
  obtain ⟨forward₂, due₂, _⟩ := (second.pace_after m₂).of_polled asked₂
  have forward : m₂.clock ≤ now₂ := forward₂
  have due : m₂.poller.nextTick ≤ now₂ := due₂
  constructor
  · -- The first tick notes its time, and what is noted afterwards is no earlier.
    have noted : m₂.Noted sensor now₁ := by
      have unremoved : .removed sensor.tid ∉ first.deeds m₁ := fun mem =>
        nomatch Turn.quiet_of_arranged rfl _ mem
      have clock : (first.after m₁).clock = now₁ := clock₁
      refine Monitor.Noted.run
        ⟨Nat.le_of_eq clock.symm, now₁, ?_, Nat.le_refl _, Nat.le_of_eq clock.symm⟩ kept
      rw [Turn.lastPoll_after unremoved, if_pos (Deed.any_asks.mpr ⟨key₁, asked₁⟩)]
      exact congrArg some clock
    obtain ⟨last, asked, since, past⟩ := noted.asked
    have keyed₁ : m₁.Keyed := Turn.keyed_run (Monitor.keyed_startWith ..) before
    have keyed₂ : m₂.Keyed := Turn.keyed_run keyed₁ (first :: between)
    obtain ⟨s, there, waited⟩ := keyed₂.waited forward₂ asked₂
    refine ⟨s, last, there, asked, since, past.trans forward, ?_⟩
    intro fits
    rcases waited last asked with always | waited
    · omega
    · rw [timeAfter_of_lt fits] at waited
      omega
  · intro unbroken fits
    have regular : (first.after m₁).poller.interval = interval :=
      step₁.interval.trans Turn.interval_run
    have toCome : now₁ + interval ≤ (first.after m₁).poller.nextTick := by
      have next : (first.after m₁).poller.nextTick =
          timeAfter now₁ (first.after m₁).poller.interval := nextTick₁
      rw [next, regular, timeAfter_of_lt fits]
    rw [← regular] at toCome ⊢
    rcases Turn.apart_run unbroken (.inl toCome) with toCome | passed
    · exact Nat.le_trans toCome due
    · exact Nat.le_trans passed forward

end Runs

/-- The record of a sensor that is to be read every half second. -/
def halfSecondly : NumericSensorRecord :=
  { NumericSensorRecord.temperature 1 with updateInterval := ⟨0x3F000000⟩ }

/-- The sensor is found and then polled. -/
def untilPolled : List (Turn Scripted) :=
  [{ operation := .add 1 8 "Rack" },
    { operation := .discover 1 },
    { operation := .message 8 (FetchRecord.answering 0 0 halfSecondly) },
    { operation := .startPolling }]

/-- Its reading expires, it is found again, and a request for its reading is not sent. -/
def mishaps : List (Turn Scripted) :=
  [{ operation := .update 250 },
    { operation := .discover 1 },
    { operation := .message 8 (FetchRecord.answering 0 0 halfSecondly) },
    { operation := .update 500, link := fun _ _ => some (.named "TxFailure") }]

theorem readings_spaced_mishaps :
    let m₁ := Turn.run untilPolled (.startWith {} { timeout := 100, retries := 0 } 250 0)
    let first : Turn Scripted := { operation := .update 0 }
    let m₂ := Turn.run mishaps (first.after m₁)
    let second : Turn Scripted := { operation := .update 750 }
    (∃ key, .polled key ⟨1, 1⟩ ∈ first.deeds m₁) ∧ (∃ key, .polled key ⟨1, 1⟩ ∈ second.deeds m₂) ∧
      .removed 1 ∉ Turn.trace mishaps (first.after m₁) ∧
      ¬ Turn.Restarts mishaps (first.after m₁) ∧
      ∃ s, (m₂.atTick .reliable 750).sensor? ⟨1, 1⟩ = some s ∧ 0 + s.updateInterval ≤ 750 ∧
        0 + 250 ≤ 750 := by
  intro m₁ first m₂ second
  have asked₁ : ∃ key, .polled key ⟨1, 1⟩ ∈ first.deeds m₁ :=
    Deed.any_asks.mp (by decide +kernel)
  have asked₂ : ∃ key, .polled key ⟨1, 1⟩ ∈ second.deeds m₂ :=
    Deed.any_asks.mp (by decide +kernel)
  have kept : .removed 1 ∉ Turn.trace mishaps (first.after m₁) := by
    have none : (Turn.trace mishaps (first.after m₁)).all
        (fun | .removed _ => false | _ => true) = true := by
      decide +kernel
    intro mem
    cases List.all_eq_true.mp none _ mem
  have unbroken : ¬ Turn.Restarts mishaps (first.after m₁) := by
    simp [mishaps, Turn.Restarts]
  obtain ⟨key₁, polled₁⟩ := asked₁
  obtain ⟨key₂, polled₂⟩ := asked₂
  obtain ⟨⟨s, last, there, _, _, past, waited⟩, apart⟩ :=
    readings_spaced {} { timeout := 100, retries := 0 } 250 0 untilPolled mishaps 0 750
      .reliable .reliable key₁ key₂ ⟨1, 1⟩ polled₁ polled₂ kept
  have half : ((m₂.atTick .reliable 750).sensor? ⟨1, 1⟩).map (·.updateInterval) = some 500 := by
    decide +kernel
  have interval : s.updateInterval = 500 := by
    rw [there] at half
    exact Option.some.inj half
  have fits : last + s.updateInterval < UInt64.size := by
    have small : 750 + 500 < UInt64.size := by decide
    omega
  exact ⟨⟨key₁, polled₁⟩, ⟨key₂, polled₂⟩, kept, unbroken, s, there, waited fits,
    apart unbroken (by decide)⟩

/-- The record of a sensor that is to be read every 10 ^ 20 seconds. -/
def hardlyEver : NumericSensorRecord :=
  { NumericSensorRecord.temperature 1 with updateInterval := ⟨0x60AD78EC⟩ }

/-- A peer tells of that sensor, the first tick asks for its reading, and the peer answers. -/
def untilAnswered : List (Turn Scripted) :=
  [{ operation := .add 1 8 "Rack" },
    { operation := .discover 1 },
    { operation := .message 8 (FetchRecord.answering 0 0 hardlyEver) },
    { operation := .startPolling },
    { operation := .update 1000 },
    { operation := .message 8 (ReadSensor.answering 0 .unavailable (.u8 0)) }]

/-- The interval is as many milliseconds as 64 bits can tell. So the next tick asks again, 250
milliseconds after the first. -/
theorem asked_again_early :
    let start : Monitor Scripted := .startWith {} {} 250 0
    let m₁ := Turn.run (untilAnswered.take 4) start
    let m₂ := Turn.run untilAnswered start
    (∃ key, .polled key ⟨1, 1⟩ ∈ Turn.deeds { operation := .update 1000 } m₁) ∧
      m₂.poller.lastPoll.get? ⟨1, 1⟩ = some 1000 ∧
      ((m₂.atTick .reliable 1250).sensor? ⟨1, 1⟩).map (·.updateInterval) =
        some (UInt64.size - 1) ∧
      ∃ key, .polled key ⟨1, 1⟩ ∈ Turn.deeds { operation := .update 1250 } m₂ := by
  refine ⟨Deed.any_asks.mp ?_, ?_, ?_, Deed.any_asks.mp ?_⟩ <;> decide +kernel

end TerminusMonitor
