import TerminusMonitor.Proofs.Additions
import TerminusMonitor.Proofs.Deadlines

/-!
What a call of a correlator does to one request.

Requests that are pending have keys of their own, and a message carries the instance ID of its
request. So the messages to an endpoint that carry an ID are the attempts at one request.

* `Correlator.ends_register_events`: a request is sent under an ID that no pending request has;
* `Correlator.Addressed.kept`: so each pending message carries the ID of its own request alone;
* `Correlator.ends_update_passage`: what an update does to a request depends on that request alone.
-/

namespace TerminusMonitor

variable {κ : Type} {link : Link} {journal : Journal}

/-! ### Messages of a request -/

/-- Whether the header of a message holds an instance ID. -/
def InstanceId.isIn (iid : InstanceId) (message : List UInt8) : Bool :=
  match Header.ofBytes message with
  | .ok header => header.instanceId == iid.toByte
  | .error _ => false

theorem InstanceId.eq_of_toByte_eq : ∀ {a b : InstanceId}, a.toByte = b.toByte → a = b := by decide

/-- A request holds the ID with which it was written. -/
theorem Request.isIn_toBytes {request : Request} {iid iid' : InstanceId} {message : List UInt8}
    (written : { request with instanceId := iid.toByte }.toBytes = .ok message) :
    iid'.isIn message = true ↔ iid' = iid := by
  have idBits : ∀ iid : InstanceId, (iid.toByte ||| 0x80 ||| 0) &&& maxInstanceId = iid.toByte := by
    decide
  have typeBits : ∀ type : Fin 256, UInt8.ofFin type ≤ maxMessageType →
      UInt8.ofFin type &&& 0xc0 = 0 := by
    decide +kernel
  simp only [toBytes, header, Header.toBytes, Header.fits, Bool.and_eq_true] at written
  split at written
  next fits =>
    cases written
    have type : request.type &&& 0xc0 = 0 :=
      typeBits request.type.toFin (of_decide_eq_true fits.2)
    simp only [InstanceId.isIn, List.cons_append, Header.ofBytes, type, if_true,
      Header.firstByte, if_false, Bool.false_eq_true, idBits, beq_iff_eq]
    exact ⟨fun same => (InstanceId.eq_of_toByte_eq same).symm, fun same => same ▸ rfl⟩
  next => cases written

/-- An attempt to send a message to an endpoint, with how it ended. -/
structure Try where
  eid : Eid
  message : List UInt8
  fault? : Option TransportFault
deriving DecidableEq

/-- The attempts to send messages. -/
def Journal.tries (journal : Journal) : List Try :=
  journal.filterMap fun
    | .sent eid message fault? => some { eid, message, fault? }
    | _ => none

/-- The attempts that succeeded. -/
def Try.sent (tries : List Try) : List Try := tries.filter (·.fault? = none)

theorem Try.sent_append {tries later : List Try} :
    sent (tries ++ later) = sent tries ++ sent later := List.filter_append ..

/-- Whether a message goes to the endpoint of a request and carries its instance ID. -/
def Try.isAt (key : RequestKey) (t : Try) : Bool := t.eid = key.eid ∧ key.iid.isIn t.message = true

/-- Whether an event is no attempt to send anything. -/
def Event.IsSilent : Event → Prop
  | .sent .. => False
  | _ => True

namespace Journal

variable {journal' : Journal}

theorem tries_append : tries (journal ++ journal') = journal.tries ++ journal'.tries :=
  List.filterMap_append

theorem mem_tries {t : Try} : t ∈ journal.tries ↔ .sent t.eid t.message t.fault? ∈ journal := by
  obtain ⟨eid, message, fault?⟩ := t
  simp only [tries, List.mem_filterMap]
  constructor
  · rintro ⟨event, mem, eq⟩
    cases event with
    | sent => cases eq; exact mem
    | _ => cases eq
  · exact fun mem => ⟨_, mem, rfl⟩

theorem Grows.tries (grows : journal.Grows Event.IsSilent journal') :
    journal'.tries = journal.tries := by
  obtain ⟨events, rfl, silent⟩ := grows
  have none : Journal.tries events = [] :=
    List.eq_nil_iff_forall_not_mem.mpr fun t mem => silent _ (mem_tries.mp mem)
  rw [tries_append, none, List.append_nil]

end Journal

/-! ### Registering -/

namespace Correlator

variable {c c' : Correlator κ} {key : RequestKey}

/-- A request is sent at most once when it is registered, under a free ID that no pending request
has, and it is pending when it was sent. -/
theorem ends_register_events {eid : Eid} {request : Request} {cookie : κ} :
    Act.Ends (register eid request cookie) c link journal fun result c' journal' =>
      ∃ events, journal' = journal ++ events ∧
        (∀ eid' message fault?, .sent eid' message fault? ∈ events → eid' = eid ∧
          ∃ iid : InstanceId, c.pending.get? ⟨eid, iid⟩ = none ∧
            { request with instanceId := iid.toByte }.toBytes = .ok message) ∧
        ∀ iid, result = .ok iid → ∃ message, events = [.sent eid message none] ∧
          { request with instanceId := iid.toByte }.toBytes = .ok message ∧
          c' = c.opened ⟨eid, iid⟩ request message cookie := by
  simp only [register, onIds, Act.ends_bind, Act.ends_on, Pools.ends_take]
  cases free : (c.ids.mask eid).lowestFree? with
  | none => exact ⟨[.logged (.noFreeId eid)], rfl, by simp, by simp⟩
  | some iid =>
    simp only [Act.ends_get]
    split
    next =>
      simp only [Act.ends_bind, Act.ends_lift, Effect.ends_log, Act.ends_on, Pools.ends_free,
        Pools.holds_taken_self, if_true, Act.ends_throw]
      exact ⟨_, List.append_assoc .., by simp, by simp⟩
    next untaken =>
      have fresh := Table.contains_eq_false_iff.mp (Bool.eq_false_iff.mpr untaken)
      simp only [Act.ends_bind, Act.ends_lift, ends_transmit]
      cases written : { request with instanceId := iid.toByte }.toBytes with
      | error fault =>
        simp only [Effect.ends_log, Act.ends_on, Pools.ends_free, Pools.holds_taken_self, if_true,
          Act.ends_throw]
        exact ⟨_, List.append_assoc .., by simp, by simp⟩
      | ok message =>
        have sent {events : Journal} {fault? : Option TransportFault}
            (silent : ∀ event ∈ events, event.IsSilent) (eid' : Eid) (message' : List UInt8)
            (fault?' : Option TransportFault)
            (mem : .sent eid' message' fault?' ∈ [.sent eid message fault?] ++ events) :
            eid' = eid ∧ ∃ iid : InstanceId, c.pending.get? ⟨eid, iid⟩ = none ∧
              { request with instanceId := iid.toByte }.toBytes = .ok message' := by
          rcases List.mem_append.mp mem with mem | mem
          · cases List.mem_singleton.mp mem
            exact ⟨rfl, iid, fresh, written⟩
          · exact (silent _ mem).elim
        cases link eid (journal.attempts eid) with
        | none =>
          simp only [Act.ends_bind, Act.ends_modify, Act.ends_pure]
          refine ⟨[.sent eid message none], rfl, sent (List.forall_mem_nil _), ?_⟩
          intro iid' eq
          cases eq
          exact ⟨message, rfl, written, rfl⟩
        | some fault =>
          simp only [Act.ends_bind, Act.ends_lift, Effect.ends_log, Act.ends_on, Pools.ends_free,
            Pools.holds_taken_self, if_true, Act.ends_throw, List.append_assoc]
          refine ⟨_, rfl, sent ?_, by simp⟩
          simp [Event.IsSilent]

/-- Each pending message carries the instance ID of its request and no other. -/
def Addressed (c : Correlator κ) : Prop :=
  ∀ {key p}, c.pending.get? key = some p →
    ∀ iid : InstanceId, iid.isIn p.message = true ↔ iid = key.iid

/-- Requests end, and are sent again as they are. -/
theorem Addressed.mono (addressed : c.Addressed)
    (kept : ∀ {key p'}, c'.pending.get? key = some p' →
      ∃ p, c.pending.get? key = some p ∧ p.message = p'.message) : c'.Addressed := by
  intro key p' pending' iid
  obtain ⟨p, pending, same⟩ := kept pending'
  rw [← same]
  exact addressed pending iid

theorem Addressed.closed (addressed : c.Addressed) : (c.closed key).Addressed := by
  refine addressed.mono fun {key' p'} pending' => ?_
  rw [Correlator.closed, Table.get?_erase] at pending'
  split at pending'
  next => cases pending'
  next => exact ⟨p', pending', rfl⟩

theorem Addressed.renewed {left : Nat} (addressed : c.Addressed) :
    (c.renewed key left).Addressed := by
  refine addressed.mono fun {key' p'} pending' => ?_
  rw [Correlator.renewed, Table.get?_modify] at pending'
  split at pending'
  next same =>
    obtain ⟨p, pending, rfl⟩ := Option.map_eq_some_iff.mp pending'
    exact ⟨p, same ▸ pending, rfl⟩
  next => exact ⟨p', pending', rfl⟩

theorem Addressed.registration {eid : Eid} {request : Request} {cookie : κ}
    {result : Except Fault InstanceId} (addressed : c.Addressed)
    (registration : Registration c eid request cookie result c') : c'.Addressed := by
  cases registration with
  | sent _ _ written =>
    intro key p pending iid
    rw [opened, Table.get?_insert] at pending
    split at pending
    next same =>
      cases pending
      rw [same]
      exact Request.isIn_toBytes written
    next => exact addressed pending iid
  | exhausted => exact addressed
  | duplicate => exact addressed
  | unwritten => exact addressed
  | unsent => exact addressed

theorem Addressed.reception {eid : Eid} {message : List UInt8} {completion? : Option (Completion κ)}
    (addressed : c.Addressed) (reception : Reception c eid message completion? c') :
    c'.Addressed := by
  cases reception with
  | ignored => exact addressed
  | answered => exact addressed.closed

theorem Addressed.elapsed {now : Nat} (addressed : c.Addressed) (elapsed : c.Elapsed now c') :
    c'.Addressed := by
  refine addressed.mono fun {key p'} pending' => ?_
  rw [elapsed.pending] at pending'
  obtain ⟨p, pending, left⟩ := Option.bind_eq_some_iff.mp pending'
  refine ⟨p, pending, ?_⟩
  unfold Pending.elapsed? Pending.expired? at left
  split at left
  next =>
    split at left
    next => cases left
    next => cases left; rfl
  next => cases left; rfl

/-! ### Expiring -/

/-- What the expiry of a request does to it, if it is pending: it is sent again and waits until
another deadline, or it ends. -/
inductive Expires (key : RequestKey) (deadline : Nat) : Option (Pending κ) →
    List Try → List (Completion κ) → Option (Pending κ) → Prop where
  | absent : Expires key deadline none [] [] none
  | resent {p : Pending κ} {left : Nat} {fault? : Option TransportFault}
      (retries : p.retriesLeft = left + 1) :
      Expires key deadline (some p) [⟨key.eid, p.message, fault?⟩] []
        (some { p with retriesLeft := left, deadline })
  | timedOut {p : Pending κ} (retries : p.retriesLeft = 0) :
      Expires key deadline (some p) []
        [{ key, cookie := p.cookie, result := .error .timedOut }] none

theorem ends_expire_tries :
    Task.Ends (expire key) c link journal fun completion? c' journal' =>
      ∃ tries, journal'.tries = journal.tries ++ tries ∧
        Expires key (timeAfter c.clock c.policy.timeout) (c.pending.get? key) tries
          completion?.toList (c'.pending.get? key) := by
  simp only [expire, Task.ends_bind, Task.ends_get]
  cases pending : c.pending.get? key with
  | none =>
    simp only [Task.ends_pure, pending]
    exact ⟨[], (List.append_nil _).symm, .absent⟩
  | some p =>
    dsimp only
    split
    next retries =>
      simp only [Task.ends_bind, Task.ends_lift, Effect.ends_log, Task.ends_pure]
      have silent : (finish key : Task (Correlator κ) Unit).Adds Event.IsSilent :=
        adds_finish (fun _ => trivial) (fun _ => trivial) key
      have expired : journal.Grows Event.IsSilent
          (journal ++ [.logged (.requestExpired key p.command)]) := .single trivial
      refine (ends_finish.and (silent c link _)).mono ?_
      rintro _ c' journal' ⟨rfl, grows⟩
      refine ⟨[], (expired.trans grows).tries.trans (List.append_nil _).symm, ?_⟩
      rw [closed, Table.get?_erase_self]
      exact .timedOut retries
    next left retries =>
      have renewed : (c.renewed key left).pending.get? key =
          some { p with retriesLeft := left, deadline := timeAfter c.clock c.policy.timeout } := by
        rw [Correlator.renewed, Table.get?_modify, if_pos rfl, pending, Option.map_some]
      simp only [Task.ends_bind, Task.ends_modify, Task.ends_lift, Effect.ends_log,
        Effect.ends_send]
      cases link key.eid
          (Journal.attempts (journal ++ [.logged (.retrying key p.command left)]) key.eid) with
      | none =>
        simp only [Task.ends_pure]
        exact ⟨[⟨key.eid, p.message, none⟩], by simp [Journal.tries], renewed ▸ .resent retries⟩
      | some fault =>
        simp only [Task.ends_bind, Task.ends_lift, Effect.ends_log, Task.ends_pure]
        exact ⟨[⟨key.eid, p.message, some fault⟩], by simp [Journal.tries],
          renewed ▸ .resent retries⟩

/-- The attempts and completions of a request are its own. -/
theorem Expires.own {deadline : Nat} {p? p?' : Option (Pending κ)} {tries : List Try}
    {completions : List (Completion κ)} (expires : Expires key deadline p? tries completions p?')
    (carries : ∀ p, p? = some p → key.iid.isIn p.message = true) :
    tries.filter (·.isAt key) = tries ∧ completions.filter (·.key = key) = completions := by
  cases expires with
  | absent => exact ⟨rfl, rfl⟩
  | @resent p => simp [Try.isAt, carries p rfl]
  | timedOut => simp

/-- And none of another. -/
theorem Expires.other {key' : RequestKey} {deadline : Nat} {p? p?' : Option (Pending κ)}
    {tries : List Try} {completions : List (Completion κ)}
    (expires : Expires key deadline p? tries completions p?')
    (carries : ∀ p, p? = some p → ∀ iid : InstanceId, iid.isIn p.message = true ↔ iid = key.iid)
    (other : key ≠ key') :
    tries.filter (·.isAt key') = [] ∧ completions.filter (·.key = key') = [] := by
  cases expires with
  | absent => exact ⟨rfl, rfl⟩
  | @resent p =>
    have apart : ¬ (key.eid = key'.eid ∧ key'.iid.isIn p.message = true) := by
      rintro ⟨eid, isIn⟩
      have iid := (carries p rfl key'.iid).mp isIn
      cases key
      cases key'
      simp_all
    simp [Try.isAt, apart]
  | timedOut => simp [other]

/-- What the expiry of some requests does to each, with the attempts and completions that come of
it. -/
structure Passes (keys : List RequestKey) (c : Correlator κ) (tries : List Try)
    (completions : List (Completion κ)) (c' : Correlator κ) : Prop where
  each : ∀ key, if key ∈ keys then
      Expires key (timeAfter c.clock c.policy.timeout) (c.pending.get? key)
        (tries.filter (·.isAt key)) (completions.filter (·.key = key)) (c'.pending.get? key)
    else
      tries.filter (·.isAt key) = [] ∧ completions.filter (·.key = key) = [] ∧
        c'.pending.get? key = c.pending.get? key
  addressed : ∀ t ∈ tries, ∃ key, t.isAt key = true

theorem Expiry.addressed {completion? : Option (Completion κ)} (addressed : c.Addressed)
    (expiry : Expiry c key completion? c') : c'.Addressed := by
  cases expiry with
  | absent => exact addressed
  | resent => exact addressed.renewed
  | ended => exact addressed.closed

theorem ends_expire_passes (addressed : c.Addressed) :
    Task.Ends (expire key) c link journal fun completion? c' journal' =>
      c'.Addressed ∧ c.Expired [key] c' ∧
        ∃ tries, journal'.tries = journal.tries ++ tries ∧
          Passes [key] c tries completion?.toList c' := by
  refine (ends_expire.and ends_expire_tries).mono ?_
  rintro completion? c' journal' ⟨expiry, tries, same, expires⟩
  obtain ⟨ownTries, ownCompletions⟩ :=
    expires.own fun p pending => (addressed pending key.iid).mpr rfl
  refine ⟨expiry.addressed addressed, expiry.expired, tries, same, ⟨?_, ?_⟩⟩
  case refine_2 =>
    intro t mem
    rw [← ownTries] at mem
    exact ⟨key, (List.mem_filter.mp mem).2⟩
  intro key'
  by_cases own : key' = key
  · subst own
    rwa [if_pos (List.mem_singleton_self _), ownTries, ownCompletions]
  · have notOwn : key' ∉ [key] := mt List.mem_singleton.mp own
    obtain ⟨noTries, noCompletions⟩ :=
      expires.other (fun p pending => addressed pending) (Ne.symm own)
    rw [if_neg notOwn]
    exact ⟨noTries, noCompletions, expiry.expired.pending.trans (if_neg notOwn)⟩

/-- A request is dealt with once, either first or later. -/
theorem Passes.cons {rest : List RequestKey} {first later : List Try}
    {completions more : List (Completion κ)} {c₁ : Correlator κ} (once : key ∉ rest)
    (passes : Passes [key] c first completions c₁) (expired : c.Expired [key] c₁)
    (passesLater : Passes rest c₁ later more c') :
    Passes (key :: rest) c (first ++ later) (completions ++ more) c' := by
  refine ⟨?_, fun t mem => (List.mem_append.mp mem).elim (passes.addressed t)
    (passesLater.addressed t)⟩
  intro key'
  have atFirst := passes.each key'
  have atLater := passesLater.each key'
  rw [expired.clock, expired.policy] at atLater
  rw [List.filter_append, List.filter_append]
  by_cases own : key' = key
  · subst own
    rw [if_pos (List.mem_singleton_self _)] at atFirst
    rw [if_neg once] at atLater
    obtain ⟨noTries, noCompletions, same⟩ := atLater
    rwa [if_pos List.mem_cons_self, noTries, noCompletions, List.append_nil, List.append_nil,
      same]
  · rw [if_neg (mt List.mem_singleton.mp own)] at atFirst
    obtain ⟨noTries, noCompletions, same⟩ := atFirst
    rw [noTries, noCompletions, List.nil_append, List.nil_append]
    rw [same] at atLater
    simpa only [List.mem_cons, own, false_or] using atLater

theorem ends_expireAll_passes {keys : List RequestKey} (addressed : c.Addressed)
    (once : keys.Nodup) :
    Task.Ends (expireAll keys) c link journal fun completions c' journal' =>
      ∃ tries, journal'.tries = journal.tries ++ tries ∧ Passes keys c tries completions c' := by
  induction keys generalizing c journal with
  | nil =>
    refine ⟨[], (List.append_nil _).symm, ?_, List.forall_mem_nil _⟩
    exact fun _ => ⟨rfl, rfl, rfl⟩
  | cons key rest ih =>
    obtain ⟨notLater, onceLater⟩ := List.nodup_cons.mp once
    rw [expireAll, Task.ends_bind]
    refine (ends_expire_passes addressed).mono ?_
    rintro completion? c₁ journal₁ ⟨addressed₁, expired, first, firstTries, passes⟩
    simp only [Task.ends_bind, Task.ends_pure]
    refine (ih addressed₁ onceLater).mono ?_
    rintro completions c₂ journal₂ ⟨later, laterTries, passesLater⟩
    refine ⟨first ++ later, ?_, passes.cons notLater expired passesLater⟩
    rw [laterTries, firstTries, List.append_assoc]

/-- What an update does to a request: before its deadline nothing, and then it expires. -/
inductive Passage (key : RequestKey) (now deadline : Nat) : Option (Pending κ) →
    List Try → List (Completion κ) → Option (Pending κ) → Prop where
  | waits {p? : Option (Pending κ)} (early : ∀ p, p? = some p → now < p.deadline) :
      Passage key now deadline p? [] [] p?
  | expires {p? p?' : Option (Pending κ)} {tries : List Try} {completions : List (Completion κ)}
      (overdue : ∀ p, p? = some p → p.deadline ≤ now)
      (expires : Expires key deadline p? tries completions p?') :
      Passage key now deadline p? tries completions p?'

/-- A request that is overdue is sent again or ends. -/
theorem Passage.acts {now deadline : Nat} {p : Pending κ} {p?' : Option (Pending κ)}
    {tries : List Try} {completions : List (Completion κ)}
    (passage : Passage key now deadline (some p) tries completions p?')
    (overdue : p.deadline ≤ now) :
    (∃ fault?, ⟨key.eid, p.message, fault?⟩ ∈ tries) ∨
      { key, cookie := p.cookie, result := .error .timedOut } ∈ completions := by
  cases passage with
  | waits early => exact absurd overdue (Nat.not_le.mpr (early p rfl))
  | expires _ expires =>
    cases expires with
    | resent => exact .inl ⟨_, List.mem_singleton_self _⟩
    | timedOut => exact .inr (List.mem_singleton_self _)

/-- What is sent is the message of an overdue request. -/
theorem Passage.overdue {now deadline : Nat} {p? p?' : Option (Pending κ)} {tries : List Try}
    {completions : List (Completion κ)} {t : Try}
    (passage : Passage key now deadline p? tries completions p?') (mem : t ∈ tries) :
    ∃ p, p? = some p ∧ p.deadline ≤ now ∧ t.eid = key.eid ∧ t.message = p.message := by
  cases passage with
  | waits => cases mem
  | expires overdue expires =>
    cases expires with
    | absent => cases mem
    | @resent p =>
      cases List.mem_singleton.mp mem
      exact ⟨p, rfl, overdue p rfl, rfl, rfl⟩
    | timedOut => cases mem

theorem ends_update_passage {now : Nat} (addressed : c.Addressed) (forward : c.clock ≤ now) :
    Act.Ends (update now) c link journal fun result c' journal' =>
      ∃ completions tries, result = .ok completions ∧ journal'.tries = journal.tries ++ tries ∧
        (∀ t ∈ tries, ∃ key, t.isAt key = true) ∧
        ∀ key, Passage key now (timeAfter now c.policy.timeout) (c.pending.get? key)
          (tries.filter (·.isAt key)) (completions.filter (·.key = key))
          (c'.pending.get? key) := by
  simp only [update, Act.ends_bind, Act.ends_get, Nat.not_lt.mpr forward, if_false,
    Act.ends_modify, Act.ends_ofTask]
  have addressed' : Addressed { c with clock := now } := addressed
  refine (ends_expireAll_passes addressed' (Table.nodup_keys _)).mono ?_
  rintro completions c' journal' ⟨tries, same, passes⟩
  refine ⟨completions, tries, rfl, same, passes.addressed, ?_⟩
  intro key
  have passes := passes.each key
  split at passes
  next overdue =>
    refine .expires ?_ passes
    intro p pending
    obtain ⟨p', pending', late⟩ := mem_overdue.mp overdue
    cases pending.symm.trans pending'
    exact late
  next early =>
    obtain ⟨noTries, noCompletions, same⟩ := passes
    rw [noTries, noCompletions, same]
    refine .waits ?_
    intro p pending
    exact Nat.lt_of_not_le fun late => early (mem_overdue.mpr ⟨p, pending, late⟩)

end Correlator

end TerminusMonitor
