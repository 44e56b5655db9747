import Mathlib.Data.List.Range
import TerminusMonitor.Proofs.Silence

/-!
Walks that wait are resumed.

Peers may answer as they like. Of the instance IDs that answers and timeouts free at an
endpoint, other walks may get all. But they end at a record that they have seen, so that the
records they can ask for run out, and with them the requests that a walk waits for.

* `Monitor.Ebbs`: what messages and updates leave of the requests to an endpoint of which a
  walk waits for an instance ID;
* `Stretch`: messages and updates between two updates that are a timeout apart;
* `Monitor.Stalls.stretches`: what stretches leave as long as the walk waits;
* `walks_never_stuck`: a walk awaits its record, or an instance ID when all are taken, and
  is resumed in the end.
-/

namespace TerminusMonitor

variable {μ : Type} {link : Link} {journal : Journal} {now latest : Nat} {eid : Eid} {tid : Tid}

/-! ### Messages and time -/

/-- A message adds no request. -/
theorem Correlator.Reception.fewer {κ : Type} {c c' : Correlator κ} {message : List UInt8}
    {completion? : Option (Completion κ)} (reception : Reception c eid message completion? c')
    {key : RequestKey} {p : Pending κ} (pending : c'.pending.get? key = some p) :
    c.pending.get? key = some p := by
  cases reception with
  | ignored => exact pending
  | answered =>
    simp only [closed, Table.get?_erase] at pending
    split at pending
    next => cases pending
    next => exact pending

namespace Monitor

variable {m m' m'' : Monitor μ}

/-- Each request to an endpoint is as old as the one in the place of which it is, or has lost
a retry, unless a record was asked for. -/
structure Ebbs (m m' : Monitor μ) (eid : Eid) : Prop where
  reach : m'.reach ≤ m.reach
  pending : ∀ iid p', m'.pending.get? ⟨eid, iid⟩ = some p' →
    (∃ p, m.pending.get? ⟨eid, iid⟩ = some p ∧
      (p'.deadline = p.deadline ∧ p'.retriesLeft = p.retriesLeft ∨
        p'.retriesLeft < p.retriesLeft)) ∨ m'.reach < m.reach

namespace Ebbs

theorem still (watch : m'.toWatch = m.toWatch) (walks : m'.walks = m.walks) : m.Ebbs m' eid where
  reach := Nat.le_of_eq (congrArg (·.total Walk.reach) walks)
  pending iid p pending := by
    rw [watch] at pending
    exact .inl ⟨p, pending, .inl ⟨rfl, rfl⟩⟩

theorem trans (first : m.Ebbs m' eid) (later : m'.Ebbs m'' eid) : m.Ebbs m'' eid where
  reach := Nat.le_trans later.reach first.reach
  pending iid p'' pending := by
    rcases later.pending iid p'' pending with ⟨p', pending', older⟩ | less
    · rcases first.pending iid p' pending' with ⟨p, before, older'⟩ | less
      · exact .inl ⟨p, before, by omega⟩
      · exact .inr (Nat.lt_of_le_of_lt later.reach less)
    · exact .inr (Nat.lt_of_lt_of_le less first.reach)

end Ebbs

theorem Ages.ebbs (ages : m.Ages m' now) (spares : m.Spares m' eid) : m.Ebbs m' eid where
  reach := ages.reach
  pending iid p' pending := by
    rcases ages.elapses spares iid p' pending with ⟨p, before, ⟨rfl, _⟩ | retries⟩ | grants
    · exact .inl ⟨p', before, .inl ⟨rfl, rfl⟩⟩
    · exact .inl ⟨p, before, .inr (by omega)⟩
    · exact .inr grants.reach

theorem ends_onResponse_ebbs {bytes : List UInt8} {eid' : Eid}
    (accounts : m.Accounts fun _ => False) :
    Act.Ends (onResponse eid' bytes) m link journal fun _ m' _ => ∀ eid, m.Ebbs m' eid := by
  rw [onResponse, Act.ends_bind, ends_onRequests, Act.ends_ofTask]
  refine Correlator.ends_receive.mono ?_
  intro completion? c journal₁ reception
  have accounts := accounts.reception reception
  cases completion? with
  | none =>
    intro eid
    refine ⟨Nat.le_refl _, fun iid p pending => .inl ⟨p, ?_, .inl ⟨rfl, rfl⟩⟩⟩
    exact reception.fewer pending
  | some completion =>
    simp only [Act.ends_bind, Act.ends_ofTask]
    refine ends_complete.mono ?_
    rintro _ m₁ _ rfl
    have requests : ((m.withRequests c).settled completion).toCorrelator = c :=
      settled_toCorrelator
    have reach : ((m.withRequests c).settled completion).reach ≤ m.reach := reach_settled
    generalize (m.withRequests c).settled completion = m₁ at requests reach ⊢
    subst requests
    refine (ends_advance_deferred accounts).mono ?_
    rintro _ m₂ _ ⟨_, resumes, _⟩ eid
    refine ⟨Nat.le_trans resumes.reach reach, ?_⟩
    intro iid p' pending
    rcases resumes.pending pending with before | grants
    · exact .inl ⟨p', reception.fewer before, .inl ⟨rfl, rfl⟩⟩
    · exact .inr (Nat.lt_of_lt_of_le grants.reach reach)

theorem frame_onRequest [UpdateManager μ] {eid : Eid} {bytes : List UInt8} :
    Act.Ends (onRequest eid bytes) m link journal fun _ m' _ =>
      m'.toWatch = m.toWatch ∧ m'.walks = m.walks := by
  unfold onRequest
  split
  next => exact ⟨rfl, rfl⟩
  next =>
    simp only [Act.ends_bind, onInventory, Act.ends_on, Act.ends_ofTask]
    refine Task.ends_of_forall ?_
    intro response inventory _
    cases response.toBytes with
    | error => exact ⟨rfl, rfl⟩
    | ok bytes =>
      simp only [Act.ofMessage, Act.ends_pure, Act.ends_lift, Effect.ends_send]
      split <;> exact ⟨rfl, rfl⟩

/-- Nothing changes when time goes back. -/
theorem ends_update_reversed (reversed : now < m.clock) :
    Act.Ends (update now) m link journal fun _ m' _ => m' = m := by
  rw [update, Act.ends_bind, ends_onRequests]
  refine Correlator.ends_update.mono ?_
  intro result c _ lapse
  cases lapse with
  | reversed => rfl
  | expired forward => exact absurd forward (Nat.not_le.mpr reversed)

end Monitor

namespace Operation

variable {m : Monitor μ} {operation : Operation μ}

/-- Whether an operation takes in a message or lets time pass, to some time at the latest. -/
def IsPassive (latest : Nat) : Operation μ → Prop
  | update now => now ≤ latest
  | message .. | response .. => True
  | _ => False

namespace IsPassive

theorem unshared (passive : operation.IsPassive latest) : operation.Unshared := by
  cases operation with
  | share => exact passive
  | _ => trivial

theorem arranged (passive : operation.IsPassive latest) : operation.arranged m = [] := by
  cases operation with
  | update | message | response => rfl
  | _ => exact passive.elim

variable [UpdateManager μ]

theorem ends_clock (passive : operation.IsPassive latest) (accounts : m.Accounts fun _ => False)
    (clock : m.clock ≤ latest) :
    Act.Ends operation.act m link journal fun _ m' _ => m'.clock ≤ latest := by
  have serves := @Correlator.Accounts.serves Purpose (fun _ => False) (· ≤ latest)
  cases operation with
  | update now =>
    simp only [act, Act.ends_discard]
    by_cases forward : m.clock ≤ now
    · refine (Monitor.ends_update_forward accounts forward).mono ?_
      rintro _ m' _ ⟨_, _, rfl⟩
      exact passive
    · refine (Monitor.ends_update_reversed (Nat.lt_of_not_le forward)).mono ?_
      rintro _ _ _ rfl
      exact clock
  | message eid bytes =>
    refine (Monitor.keeps_onMessage serves m link journal ⟨accounts, clock⟩).mono ?_
    rintro _ m' _ ⟨⟨_, clock⟩, _⟩
    exact clock
  | response eid bytes =>
    refine (Monitor.keeps_onResponse serves m link journal ⟨accounts, clock⟩).mono ?_
    rintro _ m' _ ⟨⟨_, clock⟩, _⟩
    exact clock
  | _ => exact passive.elim

theorem ends_ebbs (passive : operation.IsPassive latest) (orderly : m.Orderly) :
    Act.Ends operation.act m link journal fun _ m' _ => m.Spares m' eid → m.Ebbs m' eid := by
  have response (eid' : Eid) (bytes : List UInt8) (journal : Journal) :
      Act.Ends (Monitor.onResponse eid' bytes) m link journal fun _ m' _ =>
        m.Spares m' eid → m.Ebbs m' eid := by
    refine (Monitor.ends_onResponse_ebbs orderly.accounts).mono ?_
    intro _ m' _ ebbs _
    exact ebbs eid
  cases operation with
  | update now =>
    simp only [act, Act.ends_discard]
    by_cases forward : m.clock ≤ now
    · refine (orderly.ends_update_ages forward link journal).mono ?_
      intro _ m' _ ages spares
      exact ages.ebbs spares
    · refine (Monitor.ends_update_reversed (Nat.lt_of_not_le forward)).mono ?_
      rintro _ _ _ rfl _
      exact .still rfl rfl
  | message eid' bytes =>
    refine Monitor.ends_onMessage_of (fun _ => ?_) (response eid' bytes)
    refine Monitor.frame_onRequest.mono ?_
    rintro _ m' _ ⟨watch, walks⟩ _
    exact .still watch walks
  | response eid' bytes => exact response eid' bytes journal
  | _ => exact passive.elim

end IsPassive

end Operation

/-! ### Turns -/

namespace Turn

variable {m : Monitor μ} {t : Turn μ} {turns : List (Turn μ)}

theorem quiet_of_arranged (arranged : t.operation.arranged m = []) :
    ∀ deed ∈ t.deeds m, deed.arranges = false := by
  intro deed mem
  obtain ⟨completions, requests, deeds, _, sends⟩ := deeds_eq (m := m) (t := t)
  rw [deeds, arranged, List.nil_append, List.mem_append] at mem
  rcases mem with settled | requested
  · obtain ⟨_, _, rfl⟩ := List.mem_map.mp settled
    rfl
  · have sends := sends deed requested
    cases deed <;> first | rfl | cases sends

variable [UpdateManager μ]

/-- A walk that a turn does not resume still waits, and its terminus is where it was. -/
theorem waits_after (keyed : m.Keyed) (attended : Scene.Attended ⟨m, []⟩)
    (quiet : ∀ deed ∈ t.deeds m, deed.arranges = false)
    (still : ∀ deed ∈ t.deeds m, deed.resumes tid = false) (waits : m.Waits tid) :
    (t.after m).Waits tid ∧ (t.after m).home tid = m.home tid := by
  -- In the midst of a turn the walk waits as long as the deeds so far have not resumed it.
  have kept := (Turn.moves keyed t).records
    (fun past s => s.Attended ∧ ((∀ deed ∈ past, deed.arranges = false) →
      (∀ deed ∈ past, deed.resumes tid = false) →
        s.monitor.Waits tid ∧ s.monitor.home tid = m.home tid)) ?_ []
    ⟨attended, fun _ _ => ⟨waits, rfl⟩⟩
  · exact kept.2 quiet still
  · rintro past s deeds s' move ⟨attended, kept⟩
    refine ⟨attended.move move, ?_⟩
    intro quiet still
    obtain ⟨quietPast, quietNow⟩ := List.forall_mem_append.mp quiet
    obtain ⟨stillPast, stillNow⟩ := List.forall_mem_append.mp still
    obtain ⟨waits, home⟩ := kept quietPast stillPast
    have stays : .removed tid ∉ deeds := fun mem => nomatch quietNow _ mem
    refine ⟨move.waits attended stays stillNow waits, ?_⟩
    rw [move.home, Deed.rehome_quiet quietNow, home]

end Turn

/-! ### Stretches of time -/

/-- A stretch of time: messages and updates, and the update at its end. -/
structure Stretch (μ : Type) where
  meanwhile : List (Turn μ)
  now : Nat
  link : Link := Link.reliable

namespace Stretch

/-- The turns of a stretch. -/
def turns (s : Stretch μ) : List (Turn μ) :=
  s.meanwhile ++ [{ operation := .update s.now, link := s.link }]

/-- Whether nothing but messages and time come in a stretch. -/
def IsPassive (s : Stretch μ) : Prop := ∀ t ∈ s.meanwhile, t.operation.IsPassive s.now

end Stretch

/-- A walk waits for an instance ID of an endpoint, in a monitor as it should be. -/
structure Monitor.Stalls (m : Monitor μ) (tid : Tid) (eid : Eid) : Prop where
  orderly : m.Orderly
  waits : m.Waits tid
  home : m.home tid = some eid

namespace Monitor.Stalls

variable {m m' : Monitor μ} {t : Turn μ} {s : Stretch μ}

theorem spares (stalls : m'.Stalls tid eid) : m.Spares m' eid :=
  .inr ⟨tid, stalls.waits, stalls.home⟩

theorem full (stalls : m.Stalls tid eid) : m.IsFull eid := by
  obtain ⟨eid', home, full⟩ := stalls.orderly.deferred tid stalls.waits
  cases stalls.home.symm.trans home
  exact full

variable [UpdateManager μ]

theorem after (stalls : m.Stalls tid eid) (passive : t.operation.IsPassive latest)
    (still : ∀ deed ∈ t.deeds m, deed.resumes tid = false) : (t.after m).Stalls tid eid := by
  obtain ⟨waits, home⟩ := Turn.waits_after stalls.orderly.keyed stalls.orderly.attended
    (Turn.quiet_of_arranged passive.arranged) still stalls.waits
  exact ⟨stalls.orderly.turn passive.unshared, waits, home.trans stalls.home⟩

/-- As long as a walk waits, messages and time make requests older. -/
theorem run {turns : List (Turn μ)} (stalls : m.Stalls tid eid)
    (passive : ∀ t ∈ turns, t.operation.IsPassive latest) (clock : m.clock ≤ latest)
    (still : ∀ deed ∈ Turn.trace turns m, deed.resumes tid = false) :
    (Turn.run turns m).Stalls tid eid ∧ m.Ebbs (Turn.run turns m) eid ∧
      (Turn.run turns m).clock ≤ latest := by
  induction turns generalizing m with
  | nil => exact ⟨stalls, .still rfl rfl, clock⟩
  | cons t rest ih =>
    obtain ⟨passiveFirst, passiveRest⟩ := List.forall_mem_cons.mp passive
    obtain ⟨stillFirst, stillRest⟩ := List.forall_mem_append.mp still
    have stalls₁ : (t.after m).Stalls tid eid := stalls.after passiveFirst stillFirst
    have ebbs : m.Ebbs (t.after m) eid :=
      Act.ends_iff.mp (passiveFirst.ends_ebbs stalls.orderly) stalls₁.spares
    have clock₁ : (t.after m).clock ≤ latest :=
      Act.ends_iff.mp (passiveFirst.ends_clock stalls.orderly.accounts clock)
    obtain ⟨stalls', ebbs', clock'⟩ := ih stalls₁ passiveRest clock₁ stillRest
    exact ⟨stalls', ebbs.trans ebbs', clock'⟩

/-- A stretch of a timeout costs each request a retry, unless a record is asked for. -/
theorem stretch (stalls : m.Stalls tid eid) (passive : s.IsPassive)
    (late : m.clock + m.policy.timeout ≤ s.now)
    (still : ∀ deed ∈ Turn.trace s.turns m, deed.resumes tid = false) :
    let m' := Turn.run s.turns m
    m'.Stalls tid eid ∧ m.Wanes m' eid m.reach m'.reach ∧ m'.clock = s.now := by
  intro m'
  let t : Turn μ := { operation := .update s.now, link := s.link }
  have forward : m.clock ≤ s.now := Nat.le_trans (Nat.le_add_right _ _) late
  rw [Stretch.turns, Turn.trace_append] at still
  obtain ⟨stillMeanwhile, stillLast⟩ := List.forall_mem_append.mp still
  obtain ⟨stalls₁, ebbs, clock₁⟩ := stalls.run passive forward stillMeanwhile
  generalize meanwhile : Turn.run s.meanwhile m = m₁ at stalls₁ ebbs clock₁ stillLast
  have last : m' = t.after m₁ := by
    rw [← meanwhile]
    exact Turn.run_append s.meanwhile [t] m
  have passiveLast : t.operation.IsPassive s.now := Nat.le_refl s.now
  have stalls' : m'.Stalls tid eid := by
    rw [last]
    refine stalls₁.after passiveLast ?_
    simpa [Turn.trace] using stillLast
  obtain ⟨ages, clock⟩ := Turn.aged_after stalls₁.orderly clock₁ s.link
  rw [← last] at ages clock
  refine ⟨stalls', ⟨Nat.le_trans ages.reach ebbs.reach, ?_⟩, clock⟩
  intro iid p' pending
  -- All IDs are taken, so that each request is in the place of another one.
  obtain ⟨p, taken⟩ := Table.contains_iff.mp (stalls.full iid)
  rcases ages.elapses stalls'.spares iid p' pending with ⟨p₁, pending₁, older⟩ | grants
  · rcases ebbs.pending iid p₁ pending₁ with ⟨p, before, older'⟩ | less
    · have due := (stalls.orderly.timely _ p before).1
      refine ⟨p, before, .inl ?_⟩
      rcases older with ⟨rfl, early⟩ | retries
      · omega
      · omega
    · exact ⟨p, taken, .inr (Nat.lt_of_le_of_lt ages.reach less)⟩
  · exact ⟨p, taken, .inr (Nat.lt_of_lt_of_le grants.reach ebbs.reach)⟩

/-- Stretches that are a timeout long use up as many timeouts. -/
theorem stretches {stretches : List (Stretch μ)} (stalls : m.Stalls tid eid)
    (passive : ∀ s ∈ stretches, s.IsPassive)
    (spaced : Turn.Spaced m.policy.timeout m.clock (stretches.map (·.now)))
    (still : ∀ deed ∈ Turn.trace (stretches.flatMap Stretch.turns) m, deed.resumes tid = false)
    {n : Nat} (lasts : m.LastsAt eid m.reach (n + stretches.length)) :
    let m' := Turn.run (stretches.flatMap Stretch.turns) m
    m'.Stalls tid eid ∧ m'.LastsAt eid m'.reach n := by
  induction stretches generalizing m with
  | nil => exact ⟨stalls, lasts⟩
  | cons s rest ih =>
    obtain ⟨passiveFirst, passiveRest⟩ := List.forall_mem_cons.mp passive
    obtain ⟨late, spacedRest⟩ := List.isChain_cons_cons.mp spaced
    rw [List.flatMap_cons, Turn.trace_append] at still
    obtain ⟨stillFirst, stillRest⟩ := List.forall_mem_append.mp still
    obtain ⟨stalls₁, wanes, clock⟩ := stalls.stretch passiveFirst late stillFirst
    have policy : (Turn.run s.turns m).policy = m.policy :=
      Turn.policy_run stalls.orderly.keyed s.turns
    rw [List.flatMap_cons, Turn.run_append]
    refine ih stalls₁ passiveRest ?_ stillRest (wanes.lasts stalls₁.orderly policy lasts)
    rwa [policy, clock]

end Monitor.Stalls

/-- In every state of a monitor that alone uses its pools a walk is that of a known terminus.
If its record was asked for, the request is pending at the endpoint of the terminus. If not,
all instance IDs of the endpoint are those of pending requests, and whatever messages come, an
answer or a timeout resumes the walk: it takes no longer than a round of retries for each record
that walks can still ask for, and one more. -/
theorem walks_never_stuck [UpdateManager μ] (policy : RetryPolicy) (interval now : Nat)
    {turns : List (Turn μ)} (unshared : ∀ t ∈ turns, t.operation.Unshared) :
    let m := Turn.run turns (Monitor.start policy interval now)
    ∀ tid walk, m.walks.get? tid = some walk →
      ∃ terminus, m.termini.get? tid = some terminus ∧
        (walk.inFlight = true →
          ∃ iid, m.IsPending ⟨terminus.eid, iid⟩ (.record tid walk.next)) ∧
        (walk.inFlight = false →
          (∀ iid, m.pending.contains ⟨terminus.eid, iid⟩ = true) ∧
          ∀ stretches : List (Stretch μ), (∀ s ∈ stretches, s.IsPassive) →
            Turn.Spaced policy.timeout m.clock (stretches.map (·.now)) →
            (policy.retries + 1) * (m.reach + 1) ≤ stretches.length →
            ∃ deed ∈ Turn.trace (stretches.flatMap Stretch.turns) m,
              deed.resumes tid = true) := by
  intro m tid walk found
  have start : (Monitor.start policy interval now : Monitor μ).Orderly := .start ..
  have orderly : m.Orderly := start.run unshared
  have kept : m.policy = policy := Turn.policy_run start.keyed turns
  obtain ⟨eid, home, asked⟩ := orderly.attended tid walk found
  obtain ⟨terminus, known, rfl⟩ := Option.map_eq_some_iff.mp home
  refine ⟨terminus, known, ?_, ?_⟩
  · intro inFlight
    obtain ⟨iid, mem⟩ := asked inFlight
    exact ⟨iid, Scene.mem_requests.mp mem⟩
  · intro waiting
    have stalls : m.Stalls tid terminus.eid := ⟨orderly, ⟨walk, found, waiting⟩, home⟩
    refine ⟨stalls.full, ?_⟩
    intro stretches passive spaced enough
    rw [← kept] at spaced enough
    by_contra none
    have still : ∀ deed ∈ Turn.trace (stretches.flatMap Stretch.turns) m,
        deed.resumes tid = false := by
      intro deed mem
      rw [Bool.eq_false_iff]
      exact fun resumes => none ⟨deed, mem, resumes⟩
    obtain ⟨stalls', lasts⟩ := stalls.stretches passive spaced still (n := 0)
      (orderly.lastsAt terminus.eid (by omega))
    -- The walk would wait for instance IDs that nobody has any more.
    cases (stalls'.full 0).symm.trans (lasts.over 0)

/-- Stretches of a timeout each, with a message that nobody understands in each of them. -/
def muttering (count : Nat) : List (Stretch Scripted) :=
  (List.range count).map fun n =>
    { meanwhile := [{ operation := .message 8 [0xff] }], now := impatient.timeout * (n + 1) }

theorem passive_muttering (count : Nat) : ∀ s ∈ muttering count, s.IsPassive := by
  intro s mem
  obtain ⟨n, _, rfl⟩ := List.mem_map.mp mem
  exact List.forall_mem_singleton.mpr trivial

theorem spaced_muttering (count : Nat) :
    Turn.Spaced impatient.timeout 0 ((muttering count).map (·.now)) := by
  have times : 0 :: (muttering count).map (·.now) =
      (List.range (count + 1)).map (impatient.timeout * ·) := by
    rw [List.range_succ_eq_map, muttering, List.map_cons, List.map_map, List.map_map]
    rfl
  rw [Turn.Spaced, times, List.isChain_map, List.isChain_range_succ]
  exact fun _ _ => Nat.le_refl _

/-- Of the termini at one endpoint the first has its record asked for, and the last waits. -/
theorem queued_walks_33 :
    let m := Turn.run (queueing 33) (Monitor.start impatient 250 0)
    (m.walks.get? 1).map (fun walk => (walk.next, walk.inFlight)) = some (0, true) ∧
      (m.walks.get? 33).map (·.inFlight) = some false ∧
      (m.termini.get? 1).map (·.eid) = some 8 ∧ (m.termini.get? 33).map (·.eid) = some 8 := by
  decide +kernel

theorem walks_never_stuck_queueing :
    let m := Turn.run (queueing 33) (Monitor.start impatient 250 0)
    let stretches := muttering ((impatient.retries + 1) * (m.reach + 1))
    (∀ t ∈ queueing 33, t.operation.Unshared) ∧
      (∃ iid, m.IsPending ⟨8, iid⟩ (.record 1 0)) ∧
      (∀ iid, m.pending.contains ⟨8, iid⟩ = true) ∧
      ∃ deed ∈ Turn.trace (stretches.flatMap Stretch.turns) m, deed.resumes 33 = true := by
  dsimp only
  have never := walks_never_stuck impatient 250 0 (unshared_queueing 33)
  have clock := queued_33.2.1
  obtain ⟨first, last, homeFirst, homeLast⟩ := queued_walks_33
  dsimp only at never
  generalize Turn.run (queueing 33) (Monitor.start impatient 250 0) = m at *
  obtain ⟨walk, found, eq⟩ := Option.map_eq_some_iff.mp first
  obtain ⟨next, inFlight⟩ := Prod.mk.inj eq
  obtain ⟨terminus, known, asked, _⟩ := never 1 walk found
  rw [known] at homeFirst
  obtain ⟨walk', found', waiting⟩ := Option.map_eq_some_iff.mp last
  obtain ⟨terminus', known', _, resumed⟩ := never 33 walk' found'
  rw [known'] at homeLast
  obtain ⟨full, resumed⟩ := resumed waiting
  refine ⟨unshared_queueing 33, ?_, ?_, ?_⟩
  · rw [← next, ← Option.some.inj homeFirst]
    exact asked inFlight
  · rw [← Option.some.inj homeLast]
    exact full
  · refine resumed _ (passive_muttering _) ?_ ?_
    · rw [clock]
      exact spaced_muttering _
    · simp [muttering]

end TerminusMonitor
