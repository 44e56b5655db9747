import TerminusMonitor.Proofs.Deadlines
import TerminusMonitor.Proofs.Reach
import TerminusMonitor.Proofs.Waiting

/-!
Walks that wait for an instance ID.

Between operations a walk waits only because all instance IDs of its endpoint are those of
pending requests: whatever frees one lets the walks go on.

* `Monitor.ends_askNext_resumption`: how asking for the next record of a walk ends;
* `Monitor.ends_advance_deferred`: when walks have gone on, those that still wait find all
  IDs taken;
* `Operation.ends_deferred`: so it is after every operation;
* `Monitor.Orderly.run`: and in every run in which nobody else uses the pools.
-/

namespace TerminusMonitor

variable {μ : Type} {link : Link} {journal : Journal} {m m' m'' : Monitor μ} {tid : Tid}

/-! ### Walks that go on -/

namespace Monitor

/-- A walk that waited for an instance ID of an endpoint got one. -/
structure Grants (m m' : Monitor μ) (eid : Eid) : Prop where
  walk : ∃ tid, m.Waits tid ∧ m.home tid = some eid ∧ ¬ m'.Waits tid
  reach : m'.reach < m.reach

namespace Grants

variable {eid : Eid}

theorem later (grants : m.Grants m' eid) (thins : m'.Thins m'') (reach : m''.reach ≤ m'.reach) :
    m.Grants m'' eid := by
  obtain ⟨⟨tid, waits, home, gone⟩, less⟩ := grants
  exact ⟨⟨tid, waits, home, fun waits' => gone (thins.waits waits').1⟩,
    Nat.lt_of_le_of_lt reach less⟩

theorem earlier (grants : m'.Grants m'' eid) (thins : m.Thins m') (reach : m'.reach ≤ m.reach) :
    m.Grants m'' eid := by
  obtain ⟨⟨tid, waits, home, gone⟩, less⟩ := grants
  obtain ⟨waits, same⟩ := thins.waits waits
  exact ⟨⟨tid, waits, same.symm.trans home, gone⟩, Nat.lt_of_lt_of_le less reach⟩

end Grants

/-- How asking for the next record of a walk ends when nobody else uses the pools. -/
inductive Resumption (m : Monitor μ) (tid : Tid) : Monitor μ → Prop where
  | strayed (unknown : m.termini.get? tid = none) :
      Resumption m tid { m with walks := m.walks.erase tid }
  | ended (none : m.walks.get? tid = none) : Resumption m tid m
  | asked {terminus : Terminus} {walk : Walk} {iid : InstanceId} {request : Request}
      {message : List UInt8}
      (known : m.termini.get? tid = some terminus) (found : m.walks.get? tid = some walk) :
      Resumption m tid { m.withRequests
          (m.opened ⟨terminus.eid, iid⟩ request message (.record tid walk.next)) with
        walks := m.walks.modify tid fun w => { w with inFlight := true } }
  | deferred {terminus : Terminus} (known : m.termini.get? tid = some terminus)
      (full : m.IsFull terminus.eid) : Resumption m tid m
  | unsent {terminus : Terminus} {iid : InstanceId} :
      Resumption m tid ((m.withRequests (m.refused terminus.eid iid)).finished tid)

theorem ends_askNext_resumption (accounts : m.Accounts fun _ => False) :
    Act.Ends (askNext tid) m link journal fun result m' _ =>
      result = .ok () ∧ Resumption m tid m' := by
  simp only [askNext, Act.ends_bind, Act.ends_get]
  cases known : m.termini.get? tid with
  | none => exact ⟨rfl, .strayed known⟩
  | some terminus =>
    simp only [Act.ends_bind, Act.ends_get]
    cases found : m.walks.get? tid with
    | none => exact ⟨rfl, .ended found⟩
    | some walk =>
      obtain ⟨payload, written⟩ := FetchRecord.request_eq walk.next
      simp only [written, Act.ends_bind, Act.ofMessage, Act.ends_pure, Act.ends_outcome,
        ends_onRequests]
      refine Correlator.ends_register.mono ?_
      intro result c journal₁ registration
      cases registration with
      | sent => exact ⟨rfl, .asked known found⟩
      | exhausted none => exact ⟨rfl, .deferred known (accounts.isFull none)⟩
      | duplicate free taken => exact absurd taken (Pools.Split.of_free accounts free).1
      | unwritten _ unwritten =>
        obtain ⟨message, fine⟩ := Request.written_ofPayload _ _ _
        cases fine.symm.trans unwritten
      | unsent =>
        simp only [Act.ends_bind, Act.ends_lift, Effect.ends_log, Act.ends_ofTask]
        refine ends_finishWalk.mono ?_
        rintro _ _ _ rfl
        exact ⟨trivial, .unsent⟩

namespace Resumption

theorem retains (resumption : Resumption m tid m') : m.Retains m' := by
  cases resumption with
  | strayed => exact .ended (fun _ => Table.get?_erase) (fun _ _ => rfl) fun _ => id
  | ended => exact .refl m
  | asked => exact .asked
  | deferred => exact .refl m
  | unsent => exact .unsent

/-- Other walks do not matter. -/
theorem others (resumption : Resumption m tid m') {tid' : Tid} (other : tid' ≠ tid) :
    m'.walks.get? tid' = m.walks.get? tid' := by
  cases resumption with
  | strayed => exact Table.get?_erase_of_ne other
  | ended => rfl
  | asked => exact Table.get?_modify_of_ne _ other
  | deferred => rfl
  | unsent => rw [walks_finished, if_neg other]; rfl

/-- A walk that waits still finds all instance IDs taken. -/
theorem full (resumption : Resumption m tid m') (waits : m'.Waits tid) :
    ∃ eid, m'.home tid = some eid ∧ m'.IsFull eid := by
  obtain ⟨walk', found', waiting⟩ := waits
  cases resumption with
  | strayed => rw [Table.get?_erase_self] at found'; cases found'
  | ended none => cases none.symm.trans found'
  | asked =>
    simp only [Table.get?_modify, if_true] at found'
    obtain ⟨_, _, rfl⟩ := Option.map_eq_some_iff.mp found'
    cases waiting
  | deferred known full => exact ⟨_, congrArg (Option.map _) known, full⟩
  | unsent => rw [walks_finished, if_pos rfl] at found'; cases found'

/-- A record that is asked for can not be asked for again. -/
theorem reach_asked {key : RequestKey} {request : Request} {message : List UInt8} {walk : Walk}
    (found : m.walks.get? tid = some walk) :
    reach { m.withRequests (m.opened key request message (.record tid walk.next)) with
        walks := m.walks.modify tid fun w => { w with inFlight := true } } +
      walk.reach = m.reach + Walk.reach { walk with inFlight := true } :=
  Table.total_modify found

theorem reach_le (resumption : Resumption m tid m') : m'.reach ≤ m.reach := by
  cases resumption with
  | strayed => exact Table.total_erase_le
  | ended => exact Nat.le_refl _
  | @asked terminus walk iid request message _ found =>
    have asked := @reach_asked μ m tid ⟨terminus.eid, iid⟩ request message walk found
    have less : Walk.reach { walk with inFlight := true } ≤ walk.reach := by
      simp [Walk.reach]
    omega
  | deferred => exact Nat.le_refl _
  | unsent => exact reach_finished

/-- A request that is new is that of a walk which does not wait any more. -/
theorem pending (resumption : Resumption m tid m')
    (waiting : ∀ walk, m.walks.get? tid = some walk → walk.inFlight = false) {key : RequestKey}
    {p : Pending Purpose} (pending : m'.pending.get? key = some p) :
    m.pending.get? key = some p ∨ m.Grants m' key.eid := by
  cases resumption with
  | strayed => exact .inl pending
  | ended => exact .inl pending
  | @asked terminus walk iid request message known found =>
    simp only [withRequests, Correlator.opened, Table.get?_insert] at pending
    split at pending
    next same =>
      refine .inr ⟨⟨tid, ⟨walk, found, waiting walk found⟩, ?_, ?_⟩, ?_⟩
      · rw [same, home, known]
        rfl
      · rintro ⟨walk', found', waits⟩
        simp only [Table.get?_modify, if_true] at found'
        obtain ⟨_, _, rfl⟩ := Option.map_eq_some_iff.mp found'
        cases waits
      · have asked := @reach_asked μ m tid ⟨terminus.eid, iid⟩ request message walk found
        have less : Walk.reach { walk with inFlight := true } + 1 = walk.reach := by
          simp [Walk.reach, waiting walk found]
        omega
    next => exact .inl pending
  | deferred => exact .inl pending
  | @unsent terminus iid =>
    rw [(finished_frame (m.withRequests (m.refused terminus.eid iid)) tid).1] at pending
    exact .inl pending

end Resumption

/-- Walks went on between two monitors: a request that is new is that of a walk that waited. -/
structure Resumes (m m' : Monitor μ) : Prop extends Retains m m' where
  reach : m'.reach ≤ m.reach
  pending : ∀ {key p}, m'.pending.get? key = some p →
    m.pending.get? key = some p ∨ m.Grants m' key.eid

theorem Resumes.refl (m : Monitor μ) : m.Resumes m := ⟨.refl m, Nat.le_refl _, .inl⟩

theorem Resumes.trans (first : m.Resumes m') (later : m'.Resumes m'') : m.Resumes m'' where
  toRetains := first.toRetains.trans later.toRetains
  reach := Nat.le_trans later.reach first.reach
  pending pending := by
    rcases later.pending pending with before | grants
    · rcases first.pending before with before | grants
      · exact .inl before
      · exact .inr (grants.later later.toThins later.reach)
    · exact .inr (grants.earlier first.toThins first.reach)

/-- Walks that are asked to go on do so, or find all instance IDs taken. -/
theorem ends_askEach_deferred {tids : List Tid} (accounts : m.Accounts fun _ => False)
    (once : tids.Nodup)
    (waiting : ∀ tid ∈ tids, ∀ walk, m.walks.get? tid = some walk → walk.inFlight = false) :
    Act.Ends (askEach tids) m link journal fun result m' _ =>
      result = .ok () ∧ m.Resumes m' ∧
        ∀ tid ∈ tids, m'.Waits tid → ∃ eid, m'.home tid = some eid ∧ m'.IsFull eid := by
  induction tids generalizing m journal with
  | nil => exact ⟨rfl, .refl m, List.forall_mem_nil _⟩
  | cons tid rest ih =>
    obtain ⟨notLater, onceLater⟩ := List.nodup_cons.mp once
    obtain ⟨waitingFirst, waitingRest⟩ := List.forall_mem_cons.mp waiting
    have keeps : (askNext tid : Act (Monitor μ) Unit).Keeps (·.Accounts fun _ => False)
        fun _ => False := keeps_askNext Correlator.Accounts.sound.admits
    rw [askEach, Act.ends_bind]
    refine ((keeps m link journal accounts).and (ends_askNext_resumption accounts)).mono ?_
    rintro _ m₁ journal₁ ⟨⟨accounts, _⟩, rfl, resumption⟩
    refine (ih accounts onceLater ?_).mono ?_
    · intro tid' mem walk found
      refine waitingRest tid' mem walk ?_
      rwa [← resumption.others]
      rintro rfl
      exact notLater mem
    · rintro _ m₂ _ ⟨rfl, resumes, full⟩
      have first : m.Resumes m₁ :=
        ⟨resumption.retains, resumption.reach_le, resumption.pending waitingFirst⟩
      refine ⟨rfl, first.trans resumes, List.forall_mem_cons.mpr ⟨fun waits => ?_, full⟩⟩
      obtain ⟨waits₁, home⟩ := resumes.waits waits
      obtain ⟨eid, known, full⟩ := resumption.full waits₁
      exact ⟨eid, home.trans known, resumes.full full⟩

theorem ends_advance_deferred (accounts : m.Accounts fun _ => False) :
    Act.Ends advance m link journal fun result m' _ =>
      result = .ok () ∧ m.Resumes m' ∧ m'.Deferred := by
  simp only [advance, Act.ends_bind, Act.ends_get]
  have waiting : ∀ tid ∈ m.waitingWalks, ∀ walk, m.walks.get? tid = some walk →
      walk.inFlight = false := by
    intro tid mem walk found
    obtain ⟨walk', found', waiting⟩ := mem_waitingWalks.mp mem
    cases found.symm.trans found'
    exact waiting
  refine (ends_askEach_deferred accounts (Table.nodup_keys _) waiting).mono ?_
  rintro _ m' _ ⟨rfl, resumes, full⟩
  refine ⟨rfl, resumes, ?_⟩
  intro tid waits
  exact full tid (mem_waitingWalks.mpr (resumes.waits waits).1) waits

/-! ### Operations -/

theorem keeps_takeIn {inv : Correlator Purpose → Prop} (serves : Correlator.Serves inv) {eid : Eid}
    {bytes : List UInt8} :
    (takeIn eid bytes : Act (Monitor μ) _).Keeps (inv ·.toCorrelator) fun _ => False := by
  unfold takeIn
  refine .bind (keeps_onRequests (.ofTask serves.receive)) fun completion? => ?_
  cases completion? with
  | none => exact Act.keeps_pure _
  | some completion => exact .bind (.ofTask keeps_complete) fun _ => Act.keeps_pure _

theorem keeps_opening_update {inv : Correlator Purpose → Prop} (sound : Correlator.Sound inv)
    {now : Nat} :
    (Operation.opening (.update now) : Act (Monitor μ) _).Keeps (inv ·.toCorrelator)
      (· = .state .timeReversed) :=
  .bind (keeps_onRequests sound.update) fun _ =>
    .bind (.ofTask keeps_completeAll) fun _ => Act.keeps_pure _

/-- Walks that went on after the opening of an operation wait for good reason. -/
theorem ends_goOn_deferred {opening : Act (Monitor μ) (Option (List (Completion Purpose)))}
    (deferred : m.Deferred)
    (opens : Act.Ends opening m link journal fun result m₁ _ =>
      (m₁.Accounts fun _ => False) ∧ ((∀ completions, result ≠ .ok (some completions)) → m₁ = m)) :
    Act.Ends (goOn opening) m link journal fun _ m' _ => m'.Deferred := by
  rw [goOn, Act.ends_bind]
  refine opens.mono ?_
  rintro result m₁ journal₁ ⟨accounts, idle⟩
  cases result with
  | error =>
    rw [idle (by simp)]
    exact deferred
  | ok completions? =>
    cases completions? with
    | none =>
      rw [idle (by simp)]
      exact deferred
    | some =>
      refine (ends_advance_deferred accounts).mono ?_
      rintro _ m' _ ⟨_, _, deferred⟩
      exact deferred

theorem ends_onResponse_deferred {eid : Eid} {bytes : List UInt8}
    (accounts : m.Accounts fun _ => False) (deferred : m.Deferred) :
    Act.Ends (onResponse eid bytes) m link journal fun _ m' _ => m'.Deferred := by
  have keeps : (takeIn eid bytes : Act (Monitor μ) _).Keeps (·.Accounts fun _ => False)
      fun _ => False := keeps_takeIn Correlator.Accounts.sound.toServes
  rw [onResponse_eq]
  refine ends_goOn_deferred deferred (((keeps m link journal accounts).and ends_takeIn).mono ?_)
  rintro result m₁ _ ⟨⟨accounts, _⟩, ⟨rfl, rfl⟩ | ⟨completion, rfl, _⟩⟩
  · exact ⟨accounts, fun _ => rfl⟩
  · exact ⟨accounts, fun idle => absurd rfl (idle [completion])⟩

/-- What a monitor keeps up that alone uses its pools. -/
structure Orderly (m : Monitor μ) : Prop where
  accounts : m.Accounts fun _ => False
  timely : m.Timely
  keyed : m.Keyed
  attended : Scene.Attended ⟨m, []⟩
  deferred : m.Deferred

namespace Orderly

/-- Up to its tick an update keeps it up, -/
theorem ends_beforeTick (orderly : m.Orderly) (link : Link) (journal : Journal) (now : Nat) :
    Act.Ends (goOn (Operation.opening (.update now))) m link journal fun _ m₁ _ =>
      m₁.Keyed ∧ Scene.Attended ⟨m₁, []⟩ ∧ m₁.Deferred := by
  have opens := ends_opening_update m link journal now
  have keeps : (Operation.opening (.update now) : Act (Monitor μ) _).Keeps
      (·.Accounts fun _ => False) (· = .state .timeReversed) :=
    keeps_opening_update Correlator.Accounts.sound
  have waits := ends_goOn_deferred orderly.deferred
    (((keeps m link journal orderly.accounts).and opens).mono ?_)
  · refine ((ends_goOn opens).and waits).mono ?_
    rintro result m₁ _ ⟨moves, deferred⟩
    exact ⟨moves.preserves (·.monitor.Keyed) Keyed.move orderly.keyed,
      moves.preserves Scene.Attended Scene.Attended.move orderly.attended, deferred⟩
  · rintro result m₁ _ ⟨⟨accounts, _⟩, opened⟩
    refine ⟨accounts, fun idle => ?_⟩
    match result with
    | .error _ => exact opened
    | .ok none => exact opened
    | .ok (some completions) => exact absurd rfl (idle completions)

end Orderly

/-- and a tick makes no walk wait. -/
theorem Keyed.retains_poll (keyed : m.Keyed) (attended : Scene.Attended ⟨m, []⟩) {now : Nat} :
    Act.Ends (Watch.poll .reading now) m.toWatch link journal fun _ w' _ =>
      m.Retains { m with toWatch := w' } := by
  refine keyed.ends_poll.mono ?_
  intro _ w' _ moves
  refine (moves.retains attended ?_ rfl).2
  intro deed mem
  unfold Watch.ticking at mem
  split at mem
  next =>
    have sends := Watch.sends_of_mem_polls mem
    cases deed with
    | settled | begun => cases sends
    | _ => rfl
  next => cases mem

end Monitor

namespace Operation

variable {operation : Operation μ}

/-- An operation arranges nothing that makes a walk wait, unless it starts one. -/
theorem rouses_of_mem_arranged {deed : Deed} (other : ∀ tid, operation ≠ .discover tid)
    (mem : deed ∈ operation.arranged m) : deed.rouses = false := by
  cases deed with
  | settled => cases arranges_of_mem_arranged mem
  | begun tid => exact absurd (discover_of_begun mem).1 (other tid)
  | _ => rfl

/-- After an operation the walks that wait find all instance IDs taken. -/
theorem ends_deferred [UpdateManager μ] (unshared : operation.Unshared) (orderly : m.Orderly) :
    Act.Ends operation.act m link journal fun _ m' _ => m'.Deferred := by
  have moved {deeds : List Deed} {m' : Monitor μ} (moves : Moves ⟨m, []⟩ deeds ⟨m', []⟩)
      (calm : ∀ deed ∈ deeds, deed.rouses = false) : m'.Deferred :=
    orderly.deferred.mono (moves.retains orderly.attended calm rfl).2
  -- Most operations take in no outcomes and have no tick.
  have still (undriven : operation.deeds m link journal = operation.arranged m ++ [] ++ [])
      (other : ∀ tid, operation ≠ .discover tid) :
      Act.Ends operation.act m link journal fun _ m' _ => m'.Deferred := by
    refine (ends_act orderly.keyed operation).mono fun _ m' _ moves => moved moves ?_
    rw [undriven, List.append_nil, List.append_nil]
    exact fun deed mem => rouses_of_mem_arranged other mem
  cases operation with
  | discover tid =>
    simp only [act, Monitor.discover, Act.ends_bind, Act.ends_get]
    split
    next => exact orderly.deferred
    next =>
      simp only [Act.ends_bind, Act.ends_get]
      split
      next => exact orderly.deferred
      next =>
        simp only [Act.ends_bind, Act.ends_lift, Effect.ends_log, Act.ends_modify]
        have accounts : ({ m with walks := m.walks.insert tid {} } : Monitor μ).Accounts
            fun _ => False := orderly.accounts
        refine (Monitor.ends_advance_deferred accounts).mono ?_
        rintro _ m' _ ⟨_, _, deferred⟩
        exact deferred
  | update now =>
    simp only [act, Act.ends_discard, Monitor.update_eq, Act.ends_bind]
    refine (orderly.ends_beforeTick link journal now).mono ?_
    rintro result m₁ journal₁ ⟨keyed, attended, deferred⟩
    cases result with
    | error => exact deferred
    | ok =>
      simp only [Monitor.onWatch, Act.ends_on]
      refine (keyed.retains_poll attended).mono ?_
      intro result w' _ retains
      cases result with
      | error => exact deferred.mono retains
      | ok => exact deferred.mono retains
  | message eid bytes =>
    refine Monitor.ends_onMessage_of (fun _ => ?_) fun _ => ?_
    · exact Monitor.ends_onRequest.mono fun _ m' _ moves => moved moves (List.forall_mem_nil _)
    · exact Monitor.ends_onResponse_deferred orderly.accounts orderly.deferred
  | response eid bytes =>
    exact Monitor.ends_onResponse_deferred orderly.accounts orderly.deferred
  | share => exact unshared.elim
  | _ => exact still rfl (by simp)

end Operation

/-! ### Runs -/

namespace Monitor.Orderly

theorem start (policy : RetryPolicy) (interval now : Nat) :
    (Monitor.start policy interval now : Monitor μ).Orderly where
  accounts := accounts_start policy interval now
  timely _ _ pending := nomatch pending
  keyed := keyed_startWith {} policy interval now
  attended _ _ found := nomatch found
  deferred := by
    rintro _ ⟨_, found, _⟩
    cases found

variable [UpdateManager μ]

/-- Every turn keeps it up that leaves the pools alone, -/
theorem turn {t : Turn μ} (orderly : m.Orderly) (unshared : t.operation.Unshared) :
    (t.after m).Orderly := by
  have only : ∀ t' ∈ [t], t'.operation.Unshared := List.forall_mem_singleton.mpr unshared
  have moves := Turn.moves orderly.keyed t
  obtain ⟨accounts, timely⟩ := Turn.timely_run only ⟨orderly.accounts, orderly.timely⟩
  exact {
    accounts, timely
    keyed := moves.preserves (·.monitor.Keyed) Keyed.move orderly.keyed
    attended := moves.preserves Scene.Attended Scene.Attended.move orderly.attended
    deferred := Act.ends_iff.mp (Operation.ends_deferred unshared orderly) }

/-- and so does every run. -/
theorem run {turns : List (Turn μ)} (orderly : m.Orderly)
    (unshared : ∀ t ∈ turns, t.operation.Unshared) : (Turn.run turns m).Orderly := by
  induction turns generalizing m with
  | nil => exact orderly
  | cons t rest ih =>
    obtain ⟨unsharedFirst, unsharedRest⟩ := List.forall_mem_cons.mp unshared
    exact ih (orderly.turn unsharedFirst) unsharedRest

end Monitor.Orderly

end TerminusMonitor
