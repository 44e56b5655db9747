import TerminusMonitor.Proofs.Safety

/-!
How long requests wait.

A request whose deadline passes is sent again with another deadline, as long as it has a
retry left. What the passing of time leaves of a request depends on that request alone.

* `Correlator.ends_elapse`: what it leaves of each request;
* `Correlator.Timely.sound`: each request is due within the timeout, with no more retries
  than the policy allows;
* `Turn.timely_run`: so it is in every run of a monitor that alone uses its pools;
* `Monitor.ends_update_forward`: to such a monitor time may come to any later moment.
-/

namespace TerminusMonitor

variable {κ μ : Type} {link : Link} {journal : Journal}

/-! ### Overdue requests -/

namespace Pending

/-- What is left of an overdue request: it waits until another deadline, or it is over. -/
def expired? (p : Pending κ) (deadline : Nat) : Option (Pending κ) :=
  match p.retriesLeft with
  | 0 => none
  | left + 1 => some { p with retriesLeft := left, deadline }

/-- What is left of a request at a time, with the deadline that it gets if it is overdue. -/
def elapsed? (p : Pending κ) (now deadline : Nat) : Option (Pending κ) :=
  if p.deadline ≤ now then p.expired? deadline else some p

theorem expired?_eq_some {p p' : Pending κ} {deadline : Nat}
    (left : p.expired? deadline = some p') :
    p.retriesLeft = p'.retriesLeft + 1 ∧ p'.deadline = deadline := by
  unfold expired? at left
  split at left
  next => cases left
  next retries => cases left; exact ⟨retries, rfl⟩

end Pending

namespace Correlator

variable {c c' c'' : Correlator κ} {now : Nat}

/-- What requests that expire leave behind. -/
structure Expired (c : Correlator κ) (keys : List RequestKey) (c' : Correlator κ) : Prop where
  clock : c'.clock = c.clock
  policy : c'.policy = c.policy
  pending : ∀ {key}, c'.pending.get? key =
    if key ∈ keys then (c.pending.get? key).bind (·.expired? (timeAfter c.clock c.policy.timeout))
    else c.pending.get? key

theorem Expiry.expired {key : RequestKey} {completion? : Option (Completion κ)}
    (expiry : Expiry c key completion? c') : c.Expired [key] c' := by
  cases expiry with
  | absent absent =>
    refine ⟨rfl, rfl, ?_⟩
    intro key'
    by_cases same : key' = key
    · rw [if_pos (List.mem_singleton.mpr same), same, absent]
      rfl
    · rw [if_neg (mt List.mem_singleton.mp same)]
  | resent pending retries =>
    refine ⟨rfl, rfl, ?_⟩
    intro key'
    simp only [renewed, Table.get?_modify, List.mem_singleton]
    by_cases same : key' = key
    · rw [if_pos same, if_pos same, same, pending, Option.map_some, Option.bind_some,
        Pending.expired?, retries]
    · rw [if_neg same, if_neg same]
  | ended pending retries =>
    refine ⟨rfl, rfl, ?_⟩
    intro key'
    simp only [closed, Table.get?_erase, List.mem_singleton]
    by_cases same : key' = key
    · rw [if_pos same, if_pos same, same, pending, Option.bind_some, Pending.expired?, retries]
    · rw [if_neg same, if_neg same]

/-- A request that has expired does not do so again in the same pass. -/
theorem Expired.trans {key : RequestKey} {rest : List RequestKey} (first : c.Expired [key] c')
    (later : c'.Expired rest c'') (once : key ∉ rest) : c.Expired (key :: rest) c'' where
  clock := later.clock.trans first.clock
  policy := later.policy.trans first.policy
  pending := by
    intro key'
    rw [later.pending, first.pending, first.clock, first.policy]
    by_cases same : key' = key
    · subst same
      simp [once]
    · simp [same]

theorem ends_expireAll_expired {keys : List RequestKey} (once : keys.Nodup) :
    Task.Ends (expireAll keys) c link journal fun _ c' _ => c.Expired keys c' := by
  induction keys generalizing c journal with
  | nil => exact ⟨rfl, rfl, rfl⟩
  | cons key rest ih =>
    obtain ⟨notLater, onceLater⟩ := List.nodup_cons.mp once
    rw [expireAll, Task.ends_bind]
    refine ends_expire.mono ?_
    intro _ c₁ journal₁ expiry
    rw [Task.ends_bind]
    refine (ih onceLater).mono ?_
    intro _ c₂ _ later
    exact expiry.expired.trans later notLater

/-! ### The passing of time -/

theorem mem_overdue {key : RequestKey} :
    key ∈ c.overdue ↔ ∃ p, c.pending.get? key = some p ∧ p.deadline ≤ c.clock := by
  simp only [overdue, Table.mem_keys_iff, Table.get?_filter_eq_some_iff, decide_eq_true_eq]

/-- What time leaves behind. -/
structure Elapsed (c : Correlator κ) (now : Nat) (c' : Correlator κ) : Prop where
  clock : c'.clock = now
  policy : c'.policy = c.policy
  pending : ∀ {key}, c'.pending.get? key =
    (c.pending.get? key).bind (·.elapsed? now (timeAfter now c.policy.timeout))

/-- What expires are the overdue requests. -/
theorem Expired.elapsed
    (expired : Expired { c with clock := now } (overdue { c with clock := now }) c') :
    c.Elapsed now c' where
  clock := expired.clock
  policy := expired.policy
  pending := by
    intro key
    rw [expired.pending]
    cases pending : c.pending.get? key with
    | none => simp
    | some p =>
      have due : key ∈ overdue { c with clock := now } ↔ p.deadline ≤ now := by
        rw [mem_overdue]
        simp [pending]
      simp only [due, Option.bind_some, Pending.elapsed?]

/-- When time goes on, each request whose deadline has passed is sent again or ends. -/
theorem ends_elapse (forward : c.clock ≤ now) :
    Act.Ends (update now) c link journal fun _ c' _ => c.Elapsed now c' := by
  simp only [update, Act.ends_bind, Act.ends_get, Nat.not_lt.mpr forward, if_false,
    Act.ends_modify, Act.ends_ofTask]
  exact (ends_expireAll_expired (Table.nodup_keys _)).mono fun _ _ _ expired => expired.elapsed

/-- A request that is left at a time has waited no longer, or was sent again. -/
theorem Elapsed.cases (elapsed : c.Elapsed now c') {key : RequestKey} {p' : Pending κ}
    (pending : c'.pending.get? key = some p') :
    c.pending.get? key = some p' ∧ now < p'.deadline ∨
      ∃ p, c.pending.get? key = some p ∧ p.deadline ≤ now ∧
        p.retriesLeft = p'.retriesLeft + 1 ∧ p'.deadline = timeAfter now c.policy.timeout := by
  rw [elapsed.pending] at pending
  obtain ⟨p, pending, left⟩ := Option.bind_eq_some_iff.mp pending
  unfold Pending.elapsed? at left
  split at left
  next overdue =>
    obtain ⟨retries, deadline⟩ := Pending.expired?_eq_some left
    exact .inr ⟨p, pending, overdue, retries, deadline⟩
  next early =>
    cases left
    exact .inl ⟨pending, Nat.lt_of_not_le early⟩

/-! ### Requests in time -/

/-- Each request is due within the timeout, with no more retries than the policy allows. -/
def Timely (c : Correlator κ) : Prop :=
  ∀ key p, c.pending.get? key = some p →
    p.deadline ≤ c.clock + c.policy.timeout ∧ p.retriesLeft ≤ c.policy.retries

namespace Timely

variable {others : RequestKey → Prop}

theorem registration {eid : Eid} {request : Request} {cookie : κ}
    {result : Except Fault InstanceId} (timely : c.Timely)
    (registration : Registration c eid request cookie result c') : c'.Timely := by
  cases registration with
  | sent =>
    intro key p pending
    simp only [opened, Table.get?_insert] at pending
    split at pending
    next => cases pending; exact ⟨timeAfter_le .., Nat.le_refl _⟩
    next => exact timely key p pending
  | _ => exact timely

theorem closed {key : RequestKey} (timely : c.Timely) : (c.closed key).Timely := by
  intro key' p pending
  simp only [Correlator.closed, Table.get?_erase] at pending
  split at pending
  next => cases pending
  next => exact timely key' p pending

theorem elapsed (timely : c.Timely) (elapsed : c.Elapsed now c') (forward : c.clock ≤ now) :
    c'.Timely := by
  intro key p' pending
  rw [elapsed.clock, elapsed.policy]
  rcases elapsed.cases pending with ⟨pending, _⟩ | ⟨p, pending, _, retries, deadline⟩
  · have before := timely key p' pending
    omega
  · have before := timely key p pending
    rw [deadline]
    exact ⟨timeAfter_le .., by omega⟩

theorem sound : Sound fun c : Correlator κ => c.Accounts others ∧ c.Timely where
  admits := Accounts.sound.admits.and fun _ timely => timely.registration
  receive := by
    rintro eid message c link journal ⟨accounts, timely⟩
    refine ends_receive.mono ?_
    intro completion? c' _ reception
    refine ⟨accounts.reception reception, ?_⟩
    cases reception with
    | ignored => exact timely
    | answered => exact timely.closed
  update := by
    rintro now c link journal ⟨accounts, timely⟩
    by_cases forward : c.clock ≤ now
    · refine ((Accounts.sound.update c link journal accounts).and (ends_elapse forward)).mono ?_
      rintro result c' _ ⟨⟨accounts, late⟩, elapsed⟩
      exact ⟨⟨accounts, timely.elapsed elapsed forward⟩, late⟩
    · simp only [Correlator.update, Act.ends_bind, Act.ends_get, Nat.lt_of_not_le forward, if_true,
        Act.ends_lift, Effect.ends_log]
      exact ⟨⟨accounts, timely⟩, fun _ eq => (Except.error.inj eq).symm⟩

end Timely

end Correlator

/-! ### Monitors -/

/-- The account while time stands still. -/
theorem Correlator.Accounts.serves {κ : Type} {others : RequestKey → Prop} (time : Nat → Prop) :
    Serves fun c : Correlator κ => c.Accounts others ∧ time c.clock where
  admits := Accounts.sound.admits.and fun _ clock registration => by
    cases registration <;> exact clock
  receive := by
    rintro eid message c link journal ⟨accounts, clock⟩
    refine ends_receive.mono ?_
    intro completion? c' _ reception
    refine ⟨accounts.reception reception, ?_⟩
    cases reception <;> exact clock

/-- Time that goes on keeps the account and does not fail. -/
theorem Monitor.ends_update_forward {m : Monitor μ} {others : RequestKey → Prop}
    (accounts : m.Accounts others) {now : Nat} (forward : m.clock ≤ now) :
    Act.Ends (update now) m link journal fun result m' _ =>
      (∃ delay, result = .ok delay) ∧ m'.Accounts others ∧ m'.clock = now := by
  have expires : Act.Ends (Correlator.update now) m.toCorrelator link journal fun result c _ =>
      (c.Accounts others ∧ c.clock = now) ∧ ∀ fault, result = .error fault → False := by
    refine (Correlator.ends_update.and (Correlator.ends_elapse forward)).mono ?_
    rintro result c _ ⟨lapse, elapsed⟩
    obtain ⟨accounts, late⟩ := accounts.lapse lapse
    refine ⟨⟨accounts, elapsed.clock⟩, fun fault eq => ?_⟩
    exact absurd forward (Nat.not_le.mpr (late fault eq).2)
  refine (ends_update_safe (Correlator.Accounts.serves (· = now)).admits expires).mono ?_
  rintro result m' _ ⟨⟨accounts, clock⟩, fine⟩
  refine ⟨?_, accounts, clock⟩
  cases result with
  | ok delay => exact ⟨delay, rfl⟩
  | error fault => exact (fine fault rfl).elim

/-- A monitor that alone uses its pools keeps its requests in time. -/
theorem Turn.timely_run [UpdateManager μ] {turns : List (Turn μ)} {m : Monitor μ}
    (unshared : ∀ t ∈ turns, t.operation.Unshared)
    (start : (m.Accounts fun _ => False) ∧ m.Timely) :
    ((run turns m).Accounts fun _ => False) ∧ (run turns m).Timely := by
  refine keeps_run Correlator.Timely.sound ?_ unshared start
  rintro c eid ⟨accounts, timely⟩ none
  exact ⟨accounts.without (by rintro _ ⟨⟩; exact none) fun _ _ _ => id, timely⟩

end TerminusMonitor
