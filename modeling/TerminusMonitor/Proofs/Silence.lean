import TerminusMonitor.Proofs.Deferral
import TerminusMonitor.Proofs.Tick
import TerminusMonitor.Simulation.Scripted

/-!
What is left when nobody answers.

When nothing but time goes on, an update that comes a timeout after the one before costs
each request a retry. A request that is new is one of a walk that waited, at an endpoint
where all instance IDs were taken; so there is one new request at most for each walk that
stops waiting, and none other if polling has stopped.

* `Monitor.Ages`: what an update leaves;
* `Monitor.Wanes.lasts`: what shortens the life of each request to an endpoint, those that may
  still be sent in its place counted as a round of retries each;
* `Turn.lasts_updates`: what a run of updates leaves, once polling has stopped;
* `shutdown_drains`: then a monitor that hears nothing becomes idle.
-/

namespace TerminusMonitor

variable {κ μ : Type} {link : Link} {journal : Journal} {now : Nat} {eid : Eid} {tid : Tid}

/-! ### Ticks that leave an endpoint alone -/

/-- No request goes to an endpoint where all instance IDs are taken. -/
theorem Correlator.admits_full {c₀ : Correlator κ} :
    Admits fun c => (c.Accounts fun _ => False) ∧
      ∀ eid, c₀.IsFull eid → ∀ iid, c.pending.get? ⟨eid, iid⟩ = c₀.pending.get? ⟨eid, iid⟩ := by
  refine Accounts.sound.admits.and ?_
  intro c c' eid' request cookie result _ same registration
  cases registration with
  | @sent iid' _ _ fresh =>
    intro eid full iid
    simp only [opened, Table.get?_insert]
    split
    next own =>
      cases own
      obtain ⟨p, pending⟩ := Table.contains_iff.mp (full iid')
      cases fresh.symm.trans ((same eid' full iid').trans pending)
    next => exact same eid full iid
  | _ => exact same

/-- Without polling there are no ticks. -/
theorem Watch.ends_poll_stopped {w : Watch κ} {cookie : SensorKey → κ}
    (stopped : w.poller.running = false) :
    Act.Ends (poll cookie now) w link journal fun _ w' _ => w' = w := by
  simp only [poll, Act.ends_bind, Act.ends_get, stopped, Bool.false_eq_true, false_and, if_false]
  rfl

/-- A tick sends nothing to an endpoint where all instance IDs are taken. -/
theorem Watch.ends_poll_full {w : Watch κ} {cookie : SensorKey → κ}
    (accounts : w.Accounts fun _ => False) :
    Act.Ends (poll cookie now) w link journal fun _ w' _ =>
      ∀ eid, w.IsFull eid → ∀ iid, w'.pending.get? ⟨eid, iid⟩ = w.pending.get? ⟨eid, iid⟩ := by
  have start : ∀ eid, w.IsFull eid →
      ∀ iid, w.pending.get? ⟨eid, iid⟩ = w.pending.get? ⟨eid, iid⟩ := fun _ _ _ => rfl
  refine (keeps_poll Correlator.admits_full w link journal ⟨accounts, start⟩).mono ?_
  rintro _ w' _ ⟨⟨_, same⟩, _⟩
  exact same

/-! ### Requests without an answer -/

namespace Monitor

variable {m m' m'' : Monitor μ} {completion : Completion Purpose}

/-- A request that nobody answered makes no walk wait. -/
theorem Retains.settled (late : completion.result = .error .timedOut) :
    m.Retains (m.settled completion) := by
  have requests : (m.settled completion).toCorrelator = m.toCorrelator := settled_toCorrelator
  have pending : ∀ key, m.pending.contains key = true →
      (m.settled completion).pending.contains key = true := by
    rw [requests]
    exact fun _ => id
  obtain ⟨key, cookie, result⟩ := completion
  cases late
  cases cookie with
  | reading | effecter => exact .still rfl (fun _ => home_settled) pending
  | record tid handle =>
    have ended : m.settled ⟨key, .record tid handle, .error .timedOut⟩ = m.finished tid := by
      simp only [Monitor.settled, recorded]
      split
      next none => rw [finished, none]
      next => rfl
    refine @Retains.ended _ _ _ tid (fun _ => ?_) (fun _ _ => home_settled) pending
    rw [ended, walks_finished]

theorem Retains.settle {completions : List (Completion Purpose)}
    (late : ∀ completion ∈ completions, completion.result = .error .timedOut) :
    m.Retains (completions.foldl Monitor.settled m) := by
  induction completions generalizing m with
  | nil => exact .refl m
  | cons completion rest ih =>
    obtain ⟨lateFirst, lateRest⟩ := List.forall_mem_cons.mp late
    exact (Retains.settled lateFirst).trans (ih lateRest)

theorem settle_toCorrelator {completions : List (Completion Purpose)} :
    (completions.foldl Monitor.settled m).toCorrelator = m.toCorrelator := by
  induction completions generalizing m with
  | nil => rfl
  | cons completion rest ih => exact ih.trans settled_toCorrelator

theorem reach_settle {completions : List (Completion Purpose)} :
    (completions.foldl Monitor.settled m).reach ≤ m.reach := by
  induction completions generalizing m with
  | nil => exact Nat.le_refl _
  | cons completion rest ih => exact Nat.le_trans ih reach_settled

/-! ### Updates -/

/-- Each request to an endpoint was not due yet, or has lost a retry, or is that of a walk
that waited. -/
def Elapses (m m' : Monitor μ) (now : Nat) (eid : Eid) : Prop :=
  ∀ iid p', m'.pending.get? ⟨eid, iid⟩ = some p' →
    (∃ p, m.pending.get? ⟨eid, iid⟩ = some p ∧
      (p' = p ∧ now < p.deadline ∨ p.retriesLeft = p'.retriesLeft + 1)) ∨ m.Grants m' eid

/-- What does not concern the requests to the endpoint may follow. -/
theorem Elapses.later (elapses : m.Elapses m' now eid) (thins : m'.Thins m'')
    (reach : m''.reach ≤ m'.reach)
    (same : ∀ iid, m''.pending.get? ⟨eid, iid⟩ = m'.pending.get? ⟨eid, iid⟩) :
    m.Elapses m'' now eid := by
  intro iid p' pending
  rcases elapses iid p' ((same iid).symm.trans pending) with before | grants
  · exact .inl before
  · exact .inr (grants.later thins reach)

/-- What an update leaves before its tick. -/
theorem ends_beforeTick_elapses (accounts : m.Accounts fun _ => False) (forward : m.clock ≤ now)
    (link : Link) (journal : Journal) :
    Act.Ends (goOn (Operation.opening (.update now))) m link journal fun _ m₁ _ =>
      m.Thins m₁ ∧ m₁.reach ≤ m.reach ∧ ∀ eid, m.Elapses m₁ now eid := by
  simp only [goOn, Operation.opening, Act.ends_bind, ends_onRequests]
  refine (Correlator.ends_update.and (Correlator.ends_elapse forward)).mono ?_
  rintro result c journal₁ ⟨lapse, elapsed⟩
  have accounts := (accounts.lapse lapse).1
  cases lapse with
  | reversed earlier => exact absurd forward (Nat.not_le.mpr earlier)
  | @expired completions _ _ _ timedOut =>
    simp only [Act.ends_ofTask, Act.ends_pure]
    refine ends_completeAll.mono ?_
    rintro _ _ journal₂ rfl
    have requests : (completions.foldl Monitor.settled (m.withRequests c)).toCorrelator = c :=
      settle_toCorrelator
    have settles : (m.withRequests c).Retains (completions.foldl Monitor.settled _) :=
      .settle timedOut
    have reach : (completions.foldl Monitor.settled (m.withRequests c)).reach ≤ m.reach :=
      reach_settle
    generalize completions.foldl Monitor.settled (m.withRequests c) = m₁
      at requests settles reach ⊢
    subst requests
    -- The clock and the requests do not concern the walks.
    have thins : m.Thins m₁ := ⟨settles.waits⟩
    refine (ends_advance_deferred accounts).mono ?_
    rintro _ m₂ _ ⟨_, resumes, _⟩
    refine ⟨thins.trans resumes.toThins, Nat.le_trans resumes.reach reach, ?_⟩
    intro eid iid p' pending
    rcases resumes.pending pending with before | grants
    · rcases elapsed.cases before with ⟨before, early⟩ | ⟨p, before, _, retries, _⟩
      · exact .inl ⟨p', before, .inl ⟨rfl, early⟩⟩
      · exact .inl ⟨p, before, .inr retries⟩
    · exact .inr (grants.earlier thins reach)

/-- A tick sends nothing to an endpoint of which a walk still waits for an instance ID. -/
theorem Keyed.ends_poll_thins (keyed : m.Keyed) (attended : Scene.Attended ⟨m, []⟩)
    (accounts : m.Accounts fun _ => False) (deferred : m.Deferred) :
    Act.Ends (Watch.poll .reading now) m.toWatch link journal fun _ w' _ =>
      m.Thins { m with toWatch := w' } ∧
        ∀ tid eid, Waits { m with toWatch := w' } tid →
          home { m with toWatch := w' } tid = some eid →
            ∀ iid, w'.pending.get? ⟨eid, iid⟩ = m.pending.get? ⟨eid, iid⟩ := by
  refine ((keyed.retains_poll attended).and (Watch.ends_poll_full accounts)).mono ?_
  rintro _ w' _ ⟨retains, same⟩
  refine ⟨retains.toThins, ?_⟩
  intro tid eid waits' home'
  obtain ⟨waits, still⟩ := retains.waits waits'
  obtain ⟨eid', home, full⟩ := deferred tid waits
  cases home'.symm.trans (still.trans home)
  exact same eid full

/-- Whether ticks send nothing to an endpoint until a later time: polling has stopped, or a
walk still waits for an instance ID of the endpoint then. -/
def Spares (m m' : Monitor μ) (eid : Eid) : Prop :=
  m.poller.running = false ∨ ∃ tid, m'.Waits tid ∧ m'.home tid = some eid

/-- What an update leaves. -/
structure Ages (m m' : Monitor μ) (now : Nat) : Prop extends Thins m m' where
  reach : m'.reach ≤ m.reach
  stopped : m.poller.running = false → m'.poller.running = false
  elapses : ∀ {eid}, m.Spares m' eid → m.Elapses m' now eid

theorem Orderly.ends_update_ages (orderly : m.Orderly) (forward : m.clock ≤ now) (link : Link)
    (journal : Journal) :
    Act.Ends (update now) m link journal fun _ m' _ => m.Ages m' now := by
  rw [update_eq, Act.ends_bind]
  refine ((Monitor.ends_beforeTick orderly.accounts forward link journal).and
    ((orderly.ends_beforeTick link journal now).and
      (ends_beforeTick_elapses orderly.accounts forward link journal))).mono ?_
  rintro _ m₁ journal₁
    ⟨⟨rfl, accounts, eased⟩, ⟨keyed, attended, deferred⟩, thins, reach, elapses⟩
  have ticks : Act.Ends (Watch.poll .reading now) m₁.toWatch link journal₁ fun _ w' _ =>
      m.Ages { m₁ with toWatch := w' } now := by
    by_cases stopped : m.poller.running = false
    · have stopped₁ : m₁.poller.running = false := eased.running.trans stopped
      refine (Watch.ends_poll_stopped stopped₁).mono ?_
      rintro _ _ _ rfl
      exact ⟨thins, reach, fun _ => stopped₁, fun _ => elapses _⟩
    · refine (keyed.ends_poll_thins attended accounts deferred).mono ?_
      rintro _ w' _ ⟨thins₁, same⟩
      refine ⟨thins.trans thins₁, reach, fun stopped' => absurd stopped' stopped, ?_⟩
      intro eid spares
      obtain ⟨tid, waits, home⟩ := spares.resolve_left stopped
      exact (elapses eid).later thins₁ (Nat.le_refl _) (same tid eid waits home)
  simp only [Act.ends_bind, onWatch, Act.ends_on]
  refine ticks.mono ?_
  intro result w' _ ages
  cases result <;> exact ages

/-! ### Rounds of retries -/

/-- Whether so many timeouts are enough for the requests to an endpoint to end, if so many
more are sent in their place that have all their retries left. -/
def LastsAt (m : Monitor μ) (eid : Eid) (budget n : Nat) : Prop :=
  ∀ iid p, m.pending.get? ⟨eid, iid⟩ = some p →
    (m.policy.retries + 1) * budget + p.retriesLeft < n

theorem Orderly.lastsAt (orderly : m.Orderly) (eid : Eid) {budget n : Nat}
    (enough : (m.policy.retries + 1) * (budget + 1) ≤ n) : m.LastsAt eid budget n := by
  intro iid p pending
  have retries := (orderly.timely _ p pending).2
  rw [Nat.mul_succ] at enough
  omega

/-- No timeout is left for a request. -/
theorem LastsAt.over {budget : Nat} (lasts : m.LastsAt eid budget 0) (iid : InstanceId) :
    m.pending.contains ⟨eid, iid⟩ = false := by
  rw [Bool.eq_false_iff]
  intro contains
  obtain ⟨p, pending⟩ := Table.contains_iff.mp contains
  exact Nat.not_lt_zero _ (lasts iid p pending)

/-- Each request to an endpoint is in the place of one that had more retries left, unless
some of a budget was spent. -/
structure Wanes (m m' : Monitor μ) (eid : Eid) (budget left : Nat) : Prop where
  le : left ≤ budget
  pending : ∀ iid p', m'.pending.get? ⟨eid, iid⟩ = some p' →
    ∃ p, m.pending.get? ⟨eid, iid⟩ = some p ∧ (p'.retriesLeft < p.retriesLeft ∨ left < budget)

/-- One timeout less is left for the requests to the endpoint. -/
theorem Wanes.lasts {budget left n : Nat} (wanes : m.Wanes m' eid budget left)
    (orderly : m'.Orderly) (policy : m'.policy = m.policy)
    (lasts : m.LastsAt eid budget (n + 1)) : m'.LastsAt eid left n := by
  intro iid p' pending
  rw [policy]
  obtain ⟨p, before, less⟩ := wanes.pending iid p' pending
  have last := lasts iid p before
  rcases less with retries | spent
  · have rounds := Nat.mul_le_mul_left (m.policy.retries + 1) wanes.le
    omega
  · have rounds := Nat.mul_le_mul_left (m.policy.retries + 1) (Nat.succ_le_of_lt spent)
    have retries := (orderly.timely _ p' pending).2
    rw [policy] at retries
    rw [Nat.mul_succ] at rounds
    omega

/-- With polling stopped, the budget is that of the walks that wait. -/
theorem Ages.wanes (ages : m.Ages m' now) (orderly : m.Orderly)
    (stopped : m.poller.running = false) (late : m.clock + m.policy.timeout ≤ now) :
    m.Wanes m' eid m.waitingWalks.length m'.waitingWalks.length where
  le := ages.length_le
  pending iid p' pending := by
    rcases ages.elapses (.inl stopped) iid p' pending with
      ⟨p, before, ⟨_, early⟩ | retries⟩ | ⟨⟨tid, waits, home, gone⟩, _⟩
    · have due := (orderly.timely _ p before).1
      omega
    · exact ⟨p, before, .inl (by omega)⟩
    · -- The walk waited for an ID that one of the former requests had.
      obtain ⟨eid', home', full⟩ := orderly.deferred tid waits
      cases home.symm.trans home'
      obtain ⟨p, before⟩ := Table.contains_iff.mp (full iid)
      exact ⟨p, before, .inr (ages.length_lt waits gone)⟩

end Monitor

/-! ### Runs without an answer -/

/-- The policy stays. -/
theorem Move.policy {s s' : Scene μ} {deeds : List Deed} (move : Move s deeds s') :
    s'.monitor.policy = s.monitor.policy := by
  cases move with
  | aside alike => exact alike.policy
  | settled => exact congrArg (·.policy) Monitor.settled_toCorrelator
  | unsent => exact congrArg (·.policy) (Monitor.finished_frame _ _).1
  | _ => rfl

namespace Turn

variable {m : Monitor μ} {times : List (Nat × Link)}

/-- Updates at certain times over certain links, and nothing else. -/
def updates (times : List (Nat × Link)) : List (Turn μ) :=
  times.map fun (now, link) => { operation := .update now, link }

theorem unshared_updates : ∀ t ∈ (updates times : List (Turn μ)), t.operation.Unshared := by
  intro t mem
  obtain ⟨_, _, rfl⟩ := List.mem_map.mp mem
  trivial

variable [UpdateManager μ]

theorem policy_run (keyed : m.Keyed) (turns : List (Turn μ)) :
    (run turns m).policy = m.policy :=
  run_preserves keyed turns (·.monitor.policy = m.policy) (fun move => move.policy.trans) rfl

/-- Whether times are a timeout at least apart, and the first of them from a clock. -/
def Spaced (timeout clock : Nat) (times : List Nat) : Prop :=
  (clock :: times).IsChain (· + timeout ≤ ·)

theorem aged_after (orderly : m.Orderly) (forward : m.clock ≤ now) (link : Link) :
    let t : Turn μ := { operation := .update now, link }
    m.Ages (t.after m) now ∧ (t.after m).clock = now := by
  intro t
  have ends : Act.Ends t.operation.act m link [] fun _ m' _ =>
      m.Ages m' now ∧ m'.clock = now := by
    simp only [t, Operation.act, Act.ends_discard]
    refine ((orderly.ends_update_ages forward link []).and
      (Monitor.ends_update_forward orderly.accounts forward)).mono ?_
    rintro _ m' _ ⟨ages, _, _, clock⟩
    exact ⟨ages, clock⟩
  exact Act.ends_iff.mp ends

/-- With polling stopped, updates that are a timeout apart use up as many timeouts. -/
theorem lasts_updates (orderly : m.Orderly) (stopped : m.poller.running = false)
    (spaced : Spaced m.policy.timeout m.clock (times.map Prod.fst)) {n : Nat}
    (lasts : m.LastsAt eid m.waitingWalks.length (n + times.length)) :
    (run (updates times) m).poller.running = false ∧
      (run (updates times) m).LastsAt eid (run (updates times) m).waitingWalks.length n := by
  induction times generalizing m with
  | nil => exact ⟨stopped, lasts⟩
  | cons time rest ih =>
    obtain ⟨now, link⟩ := time
    obtain ⟨late, spacedRest⟩ := List.isChain_cons_cons.mp spaced
    obtain ⟨ages, clock⟩ := aged_after orderly (Nat.le_trans (Nat.le_add_right _ _) late) link
    let t : Turn μ := { operation := .update now, link }
    have orderly₁ : (t.after m).Orderly := orderly.turn trivial
    have policy : (t.after m).policy = m.policy := policy_run orderly.keyed [t]
    refine ih orderly₁ (ages.stopped stopped) ?_ ?_
    · rwa [policy, clock]
    · exact (ages.wanes orderly stopped late).lasts orderly₁ policy lasts

end Turn

/-- A monitor with no request pending has no walk under way. -/
theorem Monitor.Orderly.isIdle {m : Monitor μ} (orderly : m.Orderly)
    (stopped : m.poller.running = false)
    (pending : ∀ key : RequestKey, m.pending.contains key = false) : m.isIdle = true := by
  have requests : m.pending.isEmpty = true :=
    Table.isEmpty_of_forall fun key => Table.contains_eq_false_iff.mp (pending key)
  have walks : m.walks.isEmpty = true := by
    apply Table.isEmpty_of_forall
    intro tid
    cases found : m.walks.get? tid with
    | none => rfl
    | some walk =>
      obtain ⟨eid, home, asked⟩ := orderly.attended tid walk found
      cases inFlight : walk.inFlight with
      | true =>
        obtain ⟨iid, mem⟩ := asked inFlight
        exact absurd (Scene.mem_requests.mp mem) (Monitor.not_isPending_of_isEmpty requests)
      | false =>
        obtain ⟨eid, _, full⟩ := orderly.deferred tid ⟨walk, found, inFlight⟩
        cases (full 0).symm.trans (pending ⟨eid, 0⟩)
  simp only [Monitor.isIdle, stopped, requests, walks, Bool.not_false, Bool.and_self]

/-- From every state in which polling has stopped, of a monitor that alone uses its pools,
updates alone make it idle whatever the transport does, if each comes a timeout at least after
the one before: as many rounds of retries as walks wait for an instance ID, and one more. -/
theorem shutdown_drains [UpdateManager μ] (policy : RetryPolicy) (interval now : Nat)
    {turns : List (Turn μ)} (unshared : ∀ t ∈ turns, t.operation.Unshared)
    (times : List (Nat × Link)) :
    let m := Turn.run turns (Monitor.start policy interval now)
    m.poller.running = false →
      Turn.Spaced policy.timeout m.clock (times.map Prod.fst) →
      (policy.retries + 1) * (m.waitingWalks.length + 1) ≤ times.length →
      (Turn.run (Turn.updates times) m).isIdle = true := by
  intro m stopped spaced enough
  have start : (Monitor.start policy interval now : Monitor μ).Orderly := .start ..
  have orderly : m.Orderly := start.run unshared
  have kept : m.policy = policy := Turn.policy_run start.keyed turns
  rw [← kept] at spaced enough
  have lasts (eid : Eid) := Turn.lasts_updates orderly stopped spaced (n := 0)
    (orderly.lastsAt eid (by omega))
  apply (orderly.run Turn.unshared_updates).isIdle
  · exact (lasts 0).1
  · rintro ⟨eid, iid⟩
    exact (lasts eid).2.over iid

/-- Termini at one endpoint, each of which is discovered. -/
def queueing (count : Nat) : List (Turn Scripted) :=
  (List.range count).flatMap fun i =>
    [{ operation := .add (.ofNat (i + 1)) 8 "Rack" }, { operation := .discover (.ofNat (i + 1)) }]

theorem unshared_queueing (count : Nat) : ∀ t ∈ queueing count, t.operation.Unshared := by
  intro t mem
  obtain ⟨_, _, mem⟩ := List.mem_flatMap.mp mem
  rcases List.mem_pair.mp mem with rfl | rfl <;> trivial

/-- A policy that resends a request once. -/
def impatient : RetryPolicy := { timeout := 100, retries := 1 }

/-- With more termini than instance IDs one walk waits. -/
theorem queued_33 :
    (Turn.run (queueing 33) (Monitor.start impatient 250 0)).waitingWalks = [33] ∧
      (Turn.run (queueing 33) (Monitor.start impatient 250 0)).clock = 0 ∧
      (Turn.run (queueing 33) (Monitor.start impatient 250 0)).poller.running = false := by
  decide +kernel

/-- Updates of which every other one cannot send anything. -/
def faltering : List (Nat × Link) :=
  [(100, .reliable), (200, fun _ _ => some (.named "TxFailure")), (350, .reliable),
    (450, fun _ _ => some (.named "TxFailure"))]

theorem shutdown_drains_queueing :
    let m := Turn.run (queueing 33) (Monitor.start impatient 250 0)
    (∀ t ∈ queueing 33, t.operation.Unshared) ∧ m.poller.running = false ∧
      Turn.Spaced impatient.timeout m.clock (faltering.map Prod.fst) ∧
      (impatient.retries + 1) * (m.waitingWalks.length + 1) ≤ faltering.length ∧
      (Turn.run (Turn.updates faltering) m).isIdle = true := by
  dsimp only
  obtain ⟨waiting, clock, stopped⟩ := queued_33
  have drains := shutdown_drains impatient 250 0 (unshared_queueing 33) faltering
  dsimp only at drains
  generalize Turn.run (queueing 33) (Monitor.start impatient 250 0) = m at *
  have spaced : Turn.Spaced impatient.timeout m.clock (faltering.map Prod.fst) := by
    rw [clock]
    simp [Turn.Spaced, faltering, impatient]
  have enough : (impatient.retries + 1) * (m.waitingWalks.length + 1) ≤ faltering.length := by
    rw [waiting]
    decide
  exact ⟨unshared_queueing 33, stopped, spaced, enough, drains stopped spaced enough⟩

end TerminusMonitor
