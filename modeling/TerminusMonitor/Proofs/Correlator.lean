import TerminusMonitor.Correlator
import TerminusMonitor.Proofs.Pools
import TerminusMonitor.Proofs.Table

/-!
What each operation of a correlator can do.

* `Correlator.ends_register`, `ends_receive`, `ends_update`: the outcomes of the
  three operations, case by case (`Registration`, `Reception`, `Sheds`);
* `Sheds.tickets`: a correlator that sheds completions loses exactly their requests,
  each as it was registered.
-/

namespace TerminusMonitor

/-- A request as its originator knows it. -/
structure Ticket (κ : Type) where
  key : RequestKey
  type : UInt8
  command : UInt8
  cookie : κ
deriving DecidableEq

/-- A completion gives back the instance ID and the cookie of a request. -/
def Ticket.Closes {κ : Type} (t : Ticket κ) (c : Completion κ) : Prop :=
  c.key = t.key ∧ c.cookie = t.cookie

namespace Correlator

variable {κ : Type} {link : Link} {journal : Journal} {c c' : Correlator κ}

/-! ### Changes -/

/-- The outstanding requests, in the order of their keys. -/
def tickets (c : Correlator κ) : List (Ticket κ) :=
  c.pending.entries.map fun e =>
    { key := e.1, type := e.2.type, command := e.2.command, cookie := e.2.cookie }

/-- The correlator with one more request, which has taken its instance ID. -/
def opened (c : Correlator κ) (key : RequestKey) (request : Request) (message : List UInt8)
    (cookie : κ) : Correlator κ :=
  { c with
    ids := c.ids.taken key.eid key.iid
    pending := c.pending.insert key {
      type := request.type
      command := request.command
      message
      deadline := timeAfter c.clock c.policy.timeout
      retriesLeft := c.policy.retries
      cookie } }

/-- The correlator that has taken an instance ID and freed it again. -/
def refused (c : Correlator κ) (eid : Eid) (iid : InstanceId) : Correlator κ :=
  { c with ids := (c.ids.taken eid iid).released eid iid }

/-- The correlator without a request, whose instance ID is free. -/
def closed (c : Correlator κ) (key : RequestKey) : Correlator κ :=
  { c with ids := c.ids.released key.eid key.iid, pending := c.pending.erase key }

/-- The correlator after a request was sent again. -/
def renewed (c : Correlator κ) (key : RequestKey) (left : Nat) : Correlator κ :=
  { c with pending := c.pending.modify key fun p =>
      { p with retriesLeft := left, deadline := timeAfter c.clock c.policy.timeout } }

/-! ### Registering -/

/-- How the registration of a request ends. -/
inductive Registration (c : Correlator κ) (eid : Eid) (request : Request) (cookie : κ) :
    Except Fault InstanceId → Correlator κ → Prop where
  | sent {iid : InstanceId} {message : List UInt8}
      (free : (c.ids.mask eid).lowestFree? = some iid)
      (fresh : c.pending.get? ⟨eid, iid⟩ = none)
      (written : { request with instanceId := iid.toByte }.toBytes = .ok message) :
      Registration c eid request cookie (.ok iid) (c.opened ⟨eid, iid⟩ request message cookie)
  | exhausted (full : (c.ids.mask eid).lowestFree? = none) :
      Registration c eid request cookie (.error .exhausted) c
  /-- The instance ID was freed while its request was still pending. -/
  | duplicate {iid : InstanceId}
      (free : (c.ids.mask eid).lowestFree? = some iid)
      (taken : c.pending.contains ⟨eid, iid⟩ = true) :
      Registration c eid request cookie (.error (.state .duplicatePending)) (c.refused eid iid)
  | unwritten {iid : InstanceId} {fault : MessageFault}
      (free : (c.ids.mask eid).lowestFree? = some iid)
      (written : { request with instanceId := iid.toByte }.toBytes = .error fault) :
      Registration c eid request cookie (.error (.invalid fault)) (c.refused eid iid)
  | unsent {iid : InstanceId} {fault : TransportFault}
      (free : (c.ids.mask eid).lowestFree? = some iid) :
      Registration c eid request cookie (.error (.transport fault)) (c.refused eid iid)

/-- A request is sent if it can be written and the link lets it pass. -/
theorem ends_transmit {eid : Eid} {request : Request}
    {post : Except Fault (List UInt8) → Journal → Prop} :
    Effect.Ends (transmit eid request) link journal post ↔
      match request.toBytes with
      | .error fault => post (.error (.invalid fault)) journal
      | .ok message =>
        let fault? := link eid (journal.attempts eid)
        post (match fault? with
            | some fault => .error (.transport fault)
            | none => .ok message)
          (journal ++ [.sent eid message fault?]) := by
  unfold transmit
  cases request.toBytes with
  | error fault => simp
  | ok message =>
    simp only [Effect.ends_bind, Effect.ends_send]
    cases link eid (journal.attempts eid) <;> simp

theorem ends_register {eid : Eid} {request : Request} {cookie : κ} :
    Act.Ends (register eid request cookie) c link journal fun result c' _ =>
      Registration c eid request cookie result c' := by
  simp only [register, onIds, Act.ends_bind, Act.ends_on, Pools.ends_take]
  cases free : (c.ids.mask eid).lowestFree? with
  | none => exact .exhausted free
  | some iid =>
    simp only [Act.ends_get]
    split
    next taken =>
      simpa [Pools.ends_free, Pools.holds_taken_self] using .duplicate free taken
    next untaken =>
      have fresh := Table.contains_eq_false_iff.mp (Bool.eq_false_iff.mpr untaken)
      simp only [Act.ends_bind, Act.ends_lift, ends_transmit]
      cases written : { request with instanceId := iid.toByte }.toBytes with
      | error fault =>
        simpa [Pools.ends_free, Pools.holds_taken_self] using .unwritten free written
      | ok message =>
        cases link eid (journal.attempts eid) with
        | none => simpa [Except.map] using .sent free fresh written
        | some fault => simpa [Pools.ends_free, Pools.holds_taken_self] using .unsent free

theorem registration (c : Correlator κ) (link : Link) (journal : Journal) (eid : Eid)
    (request : Request) (cookie : κ) :
    Registration c eid request cookie ((register eid request cookie).result c link journal)
      ((register eid request cookie).state c link journal) :=
  Act.ends_iff.mp ends_register

/-- Registering a request takes no time. -/
theorem Registration.clock {eid : Eid} {request : Request} {cookie : κ}
    {result : Except Fault InstanceId}
    (registration : Registration c eid request cookie result c') : c'.clock = c.clock := by
  cases registration <;> rfl

/-! ### Completing -/

/-- A request ends whether or not its instance ID is still in use. -/
theorem ends_finish {key : RequestKey} :
    Task.Ends (finish key) c link journal fun _ c' _ => c' = c.closed key := by
  simp only [finish, onIds, Task.ends_bind, Task.ends_modify, Task.ends_discard, Act.ends_run,
    Act.ends_on, Pools.ends_free]
  split
  next => rfl
  next unheld => simp [closed, Pools.released, unheld]

/-- How a message is taken in. -/
inductive Reception (c : Correlator κ) (eid : Eid) (message : List UInt8) :
    Option (Completion κ) → Correlator κ → Prop where
  | ignored : Reception c eid message none c
  | answered {header : Header} {iid : InstanceId} {p : Pending κ}
      (read : Header.ofBytes message = .ok header)
      (response : header.request = false)
      (id : InstanceId.ofByte? header.instanceId = some iid)
      (pending : c.pending.get? ⟨eid, iid⟩ = some p)
      (type : p.type = header.type)
      (command : p.command = header.command) :
      Reception c eid message
        (some {
          key := ⟨eid, iid⟩, cookie := p.cookie
          result := (Response.ofBytes message).mapError .invalid })
        (c.closed ⟨eid, iid⟩)

theorem ends_receive {eid : Eid} {message : List UInt8} :
    Task.Ends (receive eid message) c link journal fun completion? c' _ =>
      Reception c eid message completion? c' := by
  unfold receive
  cases read : Header.ofBytes message with
  | error fault => simpa using .ignored
  | ok header =>
    dsimp only
    cases response : header.request with
    | true => simpa using .ignored
    | false =>
      cases id : InstanceId.ofByte? header.instanceId with
      | none => simpa using .ignored
      | some iid =>
        simp only [Bool.false_eq_true, if_false, Task.ends_bind, Task.ends_get]
        cases pending : c.pending.get? ⟨eid, iid⟩ with
        | none => simpa using .ignored
        | some p =>
          dsimp only
          split
          next => simpa using .ignored
          next same =>
            obtain ⟨type, command⟩ := not_or.mp same
            have answered := Reception.answered read response id pending
              (not_not.mp type) (not_not.mp command)
            rw [Task.ends_bind]
            refine ends_finish.mono ?_
            intro _ c' _ ended
            subst ended
            cases body : Response.ofBytes message with
            | error fault => simpa [body, Except.mapError] using answered
            | ok response => simpa [body, Except.mapError] using answered

/-- A completion is that of a pending request, which ends. -/
theorem Reception.pending {eid : Eid} {message : List UInt8} {completion : Completion κ}
    (reception : Reception c eid message (some completion) c') :
    ∃ p, c.pending.get? completion.key = some p ∧ completion.cookie = p.cookie ∧
      c' = c.closed completion.key := by
  cases reception with
  | answered _ _ _ pending => exact ⟨_, pending, rfl, rfl⟩

/-! ### Expiring -/

/-- How an overdue request is dealt with. -/
inductive Expiry (c : Correlator κ) (key : RequestKey) :
    Option (Completion κ) → Correlator κ → Prop where
  | absent (absent : c.pending.get? key = none) : Expiry c key none c
  | resent {p : Pending κ} {left : Nat}
      (pending : c.pending.get? key = some p) (retries : p.retriesLeft = left + 1) :
      Expiry c key none (c.renewed key left)
  | ended {p : Pending κ}
      (pending : c.pending.get? key = some p) (retries : p.retriesLeft = 0) :
      Expiry c key (some { key, cookie := p.cookie, result := .error .timedOut }) (c.closed key)

theorem ends_expire {key : RequestKey} :
    Task.Ends (expire key) c link journal fun completion? c' _ =>
      Expiry c key completion? c' := by
  simp only [expire, Task.ends_bind, Task.ends_get]
  cases pending : c.pending.get? key with
  | none => exact .absent pending
  | some p =>
    dsimp only
    split
    next retries =>
      simp only [Task.ends_bind, Task.ends_lift, Effect.ends_log]
      refine ends_finish.mono ?_
      intro _ c' _ ended
      subst ended
      exact .ended pending retries
    next left retries =>
      simp only [Task.ends_bind, Task.ends_modify, Task.ends_lift, Effect.ends_log,
        Effect.ends_send]
      cases link key.eid _ <;> simpa using .resent pending retries

/-- A correlator that ends some requests, one after the other, and renews others. -/
inductive Sheds : Correlator κ → List (Completion κ) → Correlator κ → Prop where
  | done {c : Correlator κ} : Sheds c [] c
  | renewed {c c' : Correlator κ} {key : RequestKey} {left : Nat}
      {completions : List (Completion κ)}
      (rest : Sheds (c.renewed key left) completions c') : Sheds c completions c'
  | closed {c c' : Correlator κ} {p : Pending κ} {completion : Completion κ}
      {completions : List (Completion κ)}
      (pending : c.pending.get? completion.key = some p) (cookie : completion.cookie = p.cookie)
      (rest : Sheds (c.closed completion.key) completions c') :
      Sheds c (completion :: completions) c'

/-- What a correlator sheds was pending before, with the same cookie. -/
theorem Sheds.pending {completions : List (Completion κ)} (sheds : Sheds c completions c')
    {completion : Completion κ} (mem : completion ∈ completions) :
    ∃ p, c.pending.get? completion.key = some p ∧ completion.cookie = p.cookie := by
  induction sheds with
  | done => cases mem
  | renewed _ ih =>
    obtain ⟨p, pending, cookie⟩ := ih mem
    simp only [Correlator.renewed, Table.get?_modify] at pending
    split at pending
    next eq =>
      obtain ⟨p', pending', rfl⟩ := Option.map_eq_some_iff.mp pending
      exact ⟨p', eq ▸ pending', cookie⟩
    next => exact ⟨p, pending, cookie⟩
  | closed pending cookie _ ih =>
    rcases List.mem_cons.mp mem with rfl | mem
    · exact ⟨_, pending, cookie⟩
    · obtain ⟨p, pending', cookie'⟩ := ih mem
      simp only [Correlator.closed, Table.get?_erase] at pending'
      split at pending'
      · cases pending'
      · exact ⟨p, pending', cookie'⟩

theorem ends_expireAll {keys : List RequestKey} :
    Task.Ends (expireAll keys) c link journal fun completions c' _ =>
      Sheds c completions c' ∧
        ∀ completion ∈ completions, completion.result = .error .timedOut := by
  induction keys generalizing c journal with
  | nil => exact ⟨.done, List.forall_mem_nil _⟩
  | cons key rest ih =>
    simp only [expireAll, Task.ends_bind]
    refine ends_expire.mono ?_
    intro first? c₁ _ expiry
    refine ih.mono ?_
    rintro completions c₂ _ ⟨shed, late⟩
    cases expiry with
    | absent => exact ⟨shed, late⟩
    | resent => exact ⟨.renewed shed, late⟩
    | ended pending => exact ⟨.closed pending rfl shed, List.forall_mem_cons.mpr ⟨rfl, late⟩⟩

/-- What the passing of time does. -/
inductive Lapse (c : Correlator κ) (now : Nat) :
    Except Fault (List (Completion κ)) → Correlator κ → Prop where
  | reversed (earlier : now < c.clock) : Lapse c now (.error (.state .timeReversed)) c
  | expired {completions : List (Completion κ)} {c' : Correlator κ}
      (forward : c.clock ≤ now) (sheds : Sheds { c with clock := now } completions c')
      (late : ∀ completion ∈ completions, completion.result = .error .timedOut) :
      Lapse c now (.ok completions) c'

theorem ends_update {now : Nat} :
    Act.Ends (update now) c link journal fun result c' _ => Lapse c now result c' := by
  simp only [update, Act.ends_bind, Act.ends_get]
  split
  next earlier => simpa using .reversed earlier
  next notEarlier =>
    simp only [Act.ends_bind, Act.ends_modify, Act.ends_get, Act.ends_ofTask]
    refine ends_expireAll.mono ?_
    rintro completions c' _ ⟨sheds, late⟩
    exact .expired (Nat.le_of_not_lt notEarlier) sheds late

/-! ### Tickets -/

theorem tickets_renewed {key : RequestKey} {left : Nat} :
    (c.renewed key left).tickets = c.tickets :=
  Table.map_entries_modify fun _ _ => rfl

theorem tickets_refused {eid : Eid} {iid : InstanceId} :
    (c.refused eid iid).tickets = c.tickets := rfl

theorem tickets_opened {key : RequestKey} {request : Request} {message : List UInt8} {cookie : κ}
    (fresh : c.pending.get? key = none) :
    (c.opened key request message cookie).tickets.Perm
      ({ key, type := request.type, command := request.command, cookie } :: c.tickets) :=
  (Table.entries_insert_perm fresh).map _

theorem tickets_closed {key : RequestKey} {p : Pending κ} (pending : c.pending.get? key = some p) :
    c.tickets.Perm
      ({ key, type := p.type, command := p.command, cookie := p.cookie } ::
        (c.closed key).tickets) :=
  (Table.entries_erase_perm pending).map _

/-- What a correlator sheds are its own requests, each with its key and cookie, and it
keeps all others. -/
theorem Sheds.tickets {completions : List (Completion κ)} (sheds : Sheds c completions c') :
    ∃ tickets, List.Forall₂ Ticket.Closes tickets completions ∧
      c.tickets.Perm (tickets ++ c'.tickets) := by
  induction sheds with
  | done => exact ⟨[], .nil, .refl _⟩
  | renewed _ ih =>
    rw [tickets_renewed] at ih
    exact ih
  | closed pending cookie _ ih =>
    obtain ⟨tickets, closes, perm⟩ := ih
    exact ⟨_ :: tickets, .cons ⟨rfl, cookie⟩ closes, (tickets_closed pending).trans (perm.cons _)⟩

end Correlator

end TerminusMonitor
