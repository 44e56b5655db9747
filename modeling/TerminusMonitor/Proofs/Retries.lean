import TerminusMonitor.Proofs.Attempts
import TerminusMonitor.Proofs.Ledger

/-!
The life of a request.

A request is sent when it is registered, and again whenever its deadline has passed, until it is
answered or was sent as often as the policy allows.

* `Call.fares`: what one call does to a pending request;
* `Call.stays_over`: a request that has ended is not heard of again;
* `lived_history`: so every history of a request is a life in the sense of `Lived`;
* `requests_retried`: how often a request is sent, when, and when it may time out;
* `update_acts_at_once`, `resent_before_timeout`: what becomes of a deadline that has more than
  64 bits.
-/

namespace TerminusMonitor

open Correlator

variable {κ : Type} {link : Link} {c c' : Correlator κ} {key : RequestKey} {p : Pending κ}

/-! ### Calls -/

namespace Call

/-- A call as an operation; the completions that come of it. -/
def act : Call κ → Act (Correlator κ) (List (Completion κ))
  | .register eid request cookie => do
    discard (Correlator.register eid request cookie)
    return []
  | .receive eid message => do return (← Act.ofTask (Correlator.receive eid message)).toList
  | .update now => Correlator.update now
  | .share ids => do
    modify fun c => { c with ids }
    return []

/-- The correlator after a call. -/
def after (call : Call κ) (c : Correlator κ) (link : Link) : Correlator κ :=
  call.act.state c link []

/-- The correlator after calls, each over a link of its own. -/
def run (calls : List (Link × Call κ)) (c : Correlator κ) : Correlator κ :=
  calls.foldl (fun c call => call.2.after c call.1) c

/-- Whether a call registers a request under a key. -/
def takes (call : Call κ) (key : RequestKey) (c : Correlator κ) (link : Link) : Bool :=
  match call with
  | .register eid request cookie =>
    eid = key.eid ∧
      ((Correlator.register eid request cookie).result c link []).toOption = some key.iid
  | _ => false

/-- Whether a call tries to register a request. -/
def registers : Call κ → Bool
  | .register .. => true
  | _ => false

end Call

/-- The books tell of the same correlator. -/
theorem Ledger.enter_correlator {l : Ledger κ} {call : Call κ} :
    (l.enter link call).correlator = call.after l.correlator link := by
  refine (Act.ends_iff.mp (?_ : Act.Ends call.act l.correlator link []
    fun _ c' _ => c' = (l.enter link call).correlator)).symm
  cases call with
  | register eid request cookie =>
    simp only [Call.act, Act.ends_bind, Act.ends_discard]
    rw [Act.ends_iff]
    cases (Correlator.register eid request cookie).result l.correlator link [] <;> rfl
  | receive eid message =>
    simp only [Call.act, Act.ends_bind, Act.ends_ofTask]
    rfl
  | update now => rfl
  | share ids => rfl

theorem Ledger.run_correlator {calls : List (Link × Call κ)} {l : Ledger κ} :
    (Ledger.run calls l).correlator = Call.run calls l.correlator := by
  induction calls generalizing l with
  | nil => rfl
  | cons call rest ih =>
    rw [Ledger.run, List.foldl_cons, Call.run, List.foldl_cons, ← Ledger.enter_correlator]
    exact ih

/-! ### Histories -/

/-- A message of a request that was given to the transport in a call. -/
structure Attempt (κ : Type) where
  call : Call κ
  /-- The clock after the call. -/
  time : Nat
  message : List UInt8
  fault? : Option TransportFault

/-- A completion of a request in a call. -/
structure Ending (κ : Type) where
  call : Call κ
  /-- The clock after the call. -/
  time : Nat
  completion : Completion κ

/-- What is seen of a request. -/
inductive Mark (κ : Type) where
  | tried (attempt : Attempt κ)
  | ended (ending : Ending κ)

/-- What is seen in a call of the request with a key: the messages to its endpoint that carry its
instance ID, and its completions. The message of a registration that is attempted when the
request is over is that of another request. -/
def Call.marks (call : Call κ) (key : RequestKey) (c : Correlator κ) (link : Link) :
    List (Mark κ) :=
  let time := (call.after c link).clock
  let tries := if call.registers ∧ c.pending.contains key = false then [] else
    (call.act.journal c link []).tries.filter (·.isAt key)
  let completions := ((call.act.result c link []).toOption.getD []).filter (·.key = key)
  tries.map (fun t => .tried { call, time, message := t.message, fault? := t.fault? }) ++
    completions.map fun completion => .ended { call, time, completion }

/-- What is seen of a request in calls, until another one is registered under its key. -/
def history (key : RequestKey) : List (Link × Call κ) → Correlator κ → List (Mark κ)
  | [], _ => []
  | (link, call) :: rest, c =>
    if call.takes key c link then []
    else call.marks key c link ++ history key rest (call.after c link)

/-! ### Single calls -/

theorem Correlator.Registration.policy {eid : Eid} {request : Request} {cookie : κ}
    {result : Except Fault InstanceId}
    (registration : Registration c eid request cookie result c') : c'.policy = c.policy := by
  cases registration <;> rfl

/-- A pending request stays as it is, and keeps its ID. -/
theorem Correlator.Registration.keeps {eid : Eid} {request : Request} {cookie : κ}
    {result : Except Fault InstanceId}
    (registration : Registration c eid request cookie result c')
    (pending : c.pending.get? key = some p) :
    c'.pending.get? key = some p ∧ ∀ iid, result = .ok iid → key ≠ ⟨eid, iid⟩ := by
  cases registration with
  | @sent iid _ _ fresh =>
    have other : key ≠ ⟨eid, iid⟩ := by
      rintro rfl
      cases pending.symm.trans fresh
    exact ⟨(Table.get?_insert_of_ne other).trans pending, fun _ eq => Except.ok.inj eq ▸ other⟩
  | exhausted => exact ⟨pending, by simp⟩
  | duplicate => exact ⟨pending, by simp⟩
  | unwritten => exact ⟨pending, by simp⟩
  | unsent => exact ⟨pending, by simp⟩

/-- One that is over stays so, if its ID is not taken. -/
theorem Correlator.Registration.ended {eid : Eid} {request : Request} {cookie : κ}
    {result : Except Fault InstanceId}
    (registration : Registration c eid request cookie result c')
    (ended : c.pending.get? key = none) (other : ∀ iid, result = .ok iid → key ≠ ⟨eid, iid⟩) :
    c'.pending.get? key = none := by
  cases registration with
  | @sent iid => exact (Table.get?_insert_of_ne (other iid rfl)).trans ended
  | exhausted => exact ended
  | duplicate => exact ended
  | unwritten => exact ended
  | unsent => exact ended

theorem Correlator.Reception.policy {eid : Eid} {message : List UInt8}
    {completion? : Option (Completion κ)} (reception : Reception c eid message completion? c') :
    c'.policy = c.policy := by
  cases reception <;> rfl

theorem Correlator.Reception.clock {eid : Eid} {message : List UInt8}
    {completion? : Option (Completion κ)} (reception : Reception c eid message completion? c') :
    c'.clock = c.clock := by
  cases reception <;> rfl

/-- How a pending request of a correlator fares in a call. -/
inductive Call.Fares (c : Correlator κ) (p : Pending κ) :
    Call κ → List (Mark κ) → Option (Pending κ) → Prop where
  | unmoved {call : Call κ} : Fares c p call [] (some p)
  | resent {now left : Nat} {fault? : Option TransportFault} (forward : c.clock ≤ now)
      (overdue : p.deadline ≤ now) (retries : p.retriesLeft = left + 1) :
      Fares c p (.update now)
        [.tried { call := .update now, time := now, message := p.message, fault? }]
        (some { p with retriesLeft := left, deadline := timeAfter now c.policy.timeout })
  | timedOut {now : Nat} {completion : Completion κ} (forward : c.clock ≤ now)
      (overdue : p.deadline ≤ now) (retries : p.retriesLeft = 0)
      (late : completion.result = .error .timedOut) :
      Fares c p (.update now) [.ended { call := .update now, time := now, completion }] none
  | answered {eid : Eid} {message : List UInt8} {time : Nat} {completion : Completion κ}
      (answer : completion.result ≠ .error .timedOut) :
      Fares c p (.receive eid message)
        [.ended { call := .receive eid message, time, completion }] none

namespace Call

/-- A registration completes nothing. -/
theorem ends_register {eid : Eid} {request : Request} {cookie : κ} :
    Act.Ends (act (.register eid request cookie)) c link [] fun result c' journal =>
      result.toOption.getD [] = [] ∧
        Registration c eid request cookie
          ((Correlator.register eid request cookie).result c link []) c' ∧
        ∀ t ∈ journal.tries, t.eid = eid ∧ ∃ iid : InstanceId, c.pending.get? ⟨eid, iid⟩ = none ∧
          { request with instanceId := iid.toByte }.toBytes = .ok t.message := by
  have registered := Act.ends_iff.mp (@Correlator.ends_register κ link [] c eid request cookie)
  have events := Act.ends_iff.mp (@ends_register_events κ link [] c eid request cookie)
  simp only [act, Act.ends_bind, Act.ends_discard]
  rw [Act.ends_iff]
  generalize (Correlator.register eid request cookie).result c link [] = result,
    (Correlator.register eid request cookie).state c link [] = c',
    (Correlator.register eid request cookie).journal c link [] = journal at registered events ⊢
  obtain ⟨_, rfl, sent, _⟩ := events
  have tries : ∀ t ∈ journal.tries, _ := fun t mem => sent _ _ _ (Journal.mem_tries.mp mem)
  cases result with
  | ok => exact ⟨rfl, registered, tries⟩
  | error => exact ⟨rfl, registered, tries⟩

/-- Taking in a message sends nothing. -/
theorem ends_receive {eid : Eid} {message : List UInt8} :
    Act.Ends (act (.receive eid message)) c link [] fun result c' journal =>
      journal.tries = [] ∧ ∃ completion?, result.toOption.getD [] = completion?.toList ∧
        Reception c eid message completion? c' := by
  simp only [act, Act.ends_bind, Act.ends_ofTask, Act.ends_pure]
  have silent : (Correlator.receive eid message : Task (Correlator κ) _).Adds Event.IsSilent :=
    adds_receive (fun _ => trivial) (fun _ => trivial) eid message
  refine (Correlator.ends_receive.and (silent c link [])).mono ?_
  rintro completion? c' journal ⟨reception, silent⟩
  exact ⟨silent.tries, completion?, rfl, reception⟩

/-- Time that goes back changes nothing. -/
theorem ends_update_reversed {now : Nat} (reversed : ¬ c.clock ≤ now) :
    Act.Ends (act (.update now)) c link [] fun result c' journal =>
      result.toOption.getD [] = [] ∧ c' = c ∧ journal.tries = [] := by
  simp only [act, Correlator.update, Act.ends_bind, Act.ends_get, Nat.lt_of_not_le reversed,
    if_true, Act.ends_lift, Effect.ends_log, Act.ends_throw]
  exact ⟨rfl, trivial, rfl⟩

theorem elapsed_after {now : Nat} (forward : c.clock ≤ now) :
    c.Elapsed now ((update now).after c link) := by
  have elapses : Act.Ends (Correlator.update now) c link [] _ := ends_elapse forward
  exact Act.ends_iff.mp elapses

theorem addressed_after (addressed : c.Addressed) (call : Call κ) :
    (call.after c link).Addressed := by
  cases call with
  | register =>
    obtain ⟨_, registration, _⟩ := Act.ends_iff.mp ends_register
    exact addressed.registration registration
  | receive =>
    obtain ⟨_, _, _, reception⟩ := Act.ends_iff.mp ends_receive
    exact addressed.reception reception
  | update now =>
    by_cases forward : c.clock ≤ now
    · exact addressed.elapsed (elapsed_after forward)
    · obtain ⟨_, same, _⟩ := Act.ends_iff.mp (ends_update_reversed forward)
      exact (congrArg Addressed same).mpr addressed
  | share => exact addressed

theorem policy_after (call : Call κ) : (call.after c link).policy = c.policy := by
  cases call with
  | register =>
    obtain ⟨_, registration, _⟩ := Act.ends_iff.mp ends_register
    exact registration.policy
  | receive =>
    obtain ⟨_, _, _, reception⟩ := Act.ends_iff.mp ends_receive
    exact reception.policy
  | update now =>
    by_cases forward : c.clock ≤ now
    · exact (elapsed_after forward).policy
    · obtain ⟨_, same, _⟩ := Act.ends_iff.mp (ends_update_reversed forward)
      exact congrArg Correlator.policy same
  | share => rfl

/-- Time does not go back. -/
theorem clock_le_after (call : Call κ) : c.clock ≤ (call.after c link).clock := by
  cases call with
  | register =>
    obtain ⟨_, registration, _⟩ := Act.ends_iff.mp ends_register
    exact Nat.le_of_eq registration.clock.symm
  | receive =>
    obtain ⟨_, _, _, reception⟩ := Act.ends_iff.mp ends_receive
    exact Nat.le_of_eq reception.clock.symm
  | update now =>
    by_cases forward : c.clock ≤ now
    · exact forward.trans (Nat.le_of_eq (elapsed_after forward).clock.symm)
    · obtain ⟨_, same, _⟩ := Act.ends_iff.mp (ends_update_reversed forward)
      exact Nat.le_of_eq (congrArg Correlator.clock same).symm
  | share => exact Nat.le_refl _

theorem addressed_run (addressed : c.Addressed) (calls : List (Link × Call κ)) :
    (run calls c).Addressed := by
  induction calls generalizing c with
  | nil => exact addressed
  | cons call rest ih => exact ih (addressed_after addressed call.2)

/-- A request that is pending is not registered anew. -/
theorem fares_register {eid : Eid} {request : Request} {cookie : κ}
    (pending : c.pending.get? key = some p) :
    (register eid request cookie).takes key c link = false ∧
      (register eid request cookie).marks key c link = [] ∧
      ((register eid request cookie).after c link).pending.get? key = some p := by
  obtain ⟨none, registration, sent⟩ :=
    Act.ends_iff.mp (@ends_register κ link c eid request cookie)
  obtain ⟨kept, other⟩ := registration.keeps pending
  have tries : ((act (register eid request cookie)).journal c link []).tries.filter (·.isAt key) =
      [] := by
    refine List.filter_eq_nil_iff.mpr fun t mem => ?_
    obtain ⟨eid', iid, fresh, written⟩ := sent t mem
    simp only [Try.isAt, Request.isIn_toBytes written, decide_eq_true_eq, eid']
    rintro ⟨rfl, rfl⟩
    cases pending.symm.trans fresh
  refine ⟨?_, by simp [Call.marks, none, tries], kept⟩
  rw [takes, decide_eq_false_iff_not]
  rintro ⟨rfl, taken⟩
  cases result : (Correlator.register key.eid request cookie).result c link [] with
  | ok iid =>
    rw [result] at taken
    cases taken
    exact other key.iid result rfl
  | error => rw [result] at taken; cases taken

theorem policy_run (calls : List (Link × Call κ)) : (run calls c).policy = c.policy := by
  induction calls generalizing c with
  | nil => rfl
  | cons call rest ih => exact ih.trans (policy_after call.2)

/-- What is seen of a request in a call that registers nothing. -/
theorem marks_eq {call : Call κ} (other : call.registers = false) {tries : List Try}
    {completions : List (Completion κ)}
    (tried : (call.act.journal c link []).tries.filter (·.isAt key) = tries)
    (completed : ((call.act.result c link []).toOption.getD []).filter (·.key = key) =
      completions) :
    call.marks key c link =
      tries.map (fun t => .tried
        { call, time := (call.after c link).clock, message := t.message, fault? := t.fault? }) ++
      completions.map fun completion =>
        .ended { call, time := (call.after c link).clock, completion } := by
  simp only [Call.marks, other, Bool.false_eq_true, false_and, if_false, tried, completed]

theorem marks_receive {eid : Eid} {message : List UInt8} :
    ∃ completion?, Reception c eid message completion? ((receive eid message).after c link) ∧
      (receive eid message).marks key c link =
        (completion?.toList.filter (·.key = key)).map fun completion =>
          .ended {
            call := .receive eid message, time := ((receive eid message).after c link).clock
            completion } := by
  obtain ⟨noTries, completion?, completions, reception⟩ :=
    Act.ends_iff.mp (@ends_receive κ link c eid message)
  refine ⟨completion?, reception, ?_⟩
  rw [marks_eq rfl (congrArg _ noTries) (congrArg _ completions), List.filter_nil, List.map_nil,
    List.nil_append]

/-- What an update does to a request, and what is seen of it. -/
theorem marks_update {now : Nat} (addressed : c.Addressed) (forward : c.clock ≤ now) :
    ∃ tries completions,
      Passage key now (timeAfter now c.policy.timeout) (c.pending.get? key) tries completions
        (((update now).after c link).pending.get? key) ∧
      (update now).marks key c link =
        tries.map (fun t => .tried
          { call := .update now, time := now, message := t.message, fault? := t.fault? }) ++
        completions.map fun completion =>
          .ended { call := .update now, time := now, completion } := by
  have passes : Act.Ends (Correlator.update now) c link [] _ :=
    ends_update_passage addressed forward
  obtain ⟨completions, tries, result, same, _, passage⟩ := Act.ends_iff.mp passes
  have clock : ((update now).after c link).clock = now := (elapsed_after forward).clock
  have completed : ((act (update now)).result c link []).toOption.getD [] = completions := by
    rw [act, result]
    rfl
  have tried : ((act (update now)).journal c link []).tries = tries := same
  refine ⟨_, _, passage key, ?_⟩
  rw [marks_eq rfl (congrArg _ tried) (congrArg _ completed), clock]

theorem marks_update_reversed {now : Nat} (reversed : ¬ c.clock ≤ now) :
    (update now).after c link = c ∧ (update now).marks key c link = [] := by
  have ends : Act.Ends (act (update now)) c link [] _ := ends_update_reversed reversed
  obtain ⟨none, same, noTries⟩ := Act.ends_iff.mp ends
  refine ⟨same, ?_⟩
  rw [marks_eq rfl (congrArg _ noTries) (congrArg _ none)]
  rfl

theorem fares_receive {eid : Eid} {message : List UInt8} (pending : c.pending.get? key = some p) :
    Fares c p (receive eid message) ((receive eid message).marks key c link)
      (((receive eid message).after c link).pending.get? key) := by
  obtain ⟨completion?, reception, marks⟩ := @marks_receive κ link c key eid message
  rw [marks]
  generalize (receive eid message).after c link = c' at reception ⊢
  cases reception with
  | ignored => rw [pending]; exact .unmoved
  | @answered _ iid =>
    rw [closed, Table.get?_erase]
    by_cases own : key = ⟨eid, iid⟩
    · subst own
      rw [if_pos rfl]
      simp only [Option.toList_some, decide_true, List.filter_cons_of_pos, List.filter_nil,
        List.map_cons, List.map_nil]
      apply Fares.answered
      cases Response.ofBytes message <;> simp [Except.mapError]
    · rw [if_neg own, pending]
      simp only [Option.toList_some, Ne.symm own, decide_false, Bool.false_eq_true,
        not_false_eq_true, List.filter_cons_of_neg, List.filter_nil, List.map_nil]
      exact .unmoved

theorem fares_update {now : Nat} (addressed : c.Addressed) (pending : c.pending.get? key = some p) :
    Fares c p (update now) ((update now).marks key c link)
      (((update now).after c link).pending.get? key) := by
  by_cases forward : c.clock ≤ now
  · obtain ⟨tries, completions, passage, marks⟩ :=
      @marks_update κ link c key now addressed forward
    rw [marks]
    rw [pending] at passage
    generalize ((update now).after c link).pending.get? key = p?' at passage ⊢
    cases passage with
    | waits => exact .unmoved
    | expires overdue expires =>
      cases expires with
      | resent retries => exact .resent forward (overdue p rfl) retries
      | timedOut retries => exact .timedOut forward (overdue p rfl) retries rfl
  · obtain ⟨same, none⟩ := @marks_update_reversed κ link c key now forward
    rw [same, none, pending]
    exact .unmoved

theorem fares (addressed : c.Addressed) (pending : c.pending.get? key = some p) (call : Call κ) :
    call.takes key c link = false ∧
      call.Fares c p (call.marks key c link) ((call.after c link).pending.get? key) := by
  cases call with
  | register eid request cookie =>
    obtain ⟨untaken, none, kept⟩ := @fares_register κ link c key p eid request cookie pending
    rw [none, kept]
    exact ⟨untaken, .unmoved⟩
  | share ids =>
    have kept : ((share ids).after c link).pending.get? key = some p := pending
    have none : (share ids).marks key c link = [] := marks_eq rfl rfl rfl
    rw [kept, none]
    exact ⟨rfl, .unmoved⟩
  | receive => exact ⟨rfl, fares_receive pending⟩
  | update => exact ⟨rfl, fares_update addressed pending⟩

/-- A request that is over is not heard of again, until another has its key. -/
theorem stays_over (addressed : c.Addressed) (ended : c.pending.get? key = none) (call : Call κ)
    (untaken : call.takes key c link = false) :
    call.marks key c link = [] ∧ (call.after c link).pending.get? key = none := by
  have absent : c.pending.contains key = false := Table.contains_eq_false_iff.mpr ended
  cases call with
  | register eid request cookie =>
    obtain ⟨none, registration, _⟩ :=
      Act.ends_iff.mp (@ends_register κ link c eid request cookie)
    refine ⟨by simp [Call.marks, registers, absent, none], registration.ended ended ?_⟩
    rintro iid result rfl
    simp [takes, result, Except.toOption] at untaken
  | share ids => exact ⟨marks_eq rfl rfl rfl, ended⟩
  | receive eid message =>
    obtain ⟨completion?, reception, marks⟩ := @marks_receive κ link c key eid message
    rw [marks]
    generalize (receive eid message).after c link = c' at reception ⊢
    cases reception with
    | ignored => exact ⟨rfl, ended⟩
    | @answered _ iid _ _ _ _ pending =>
      have other : key ≠ ⟨eid, iid⟩ := by
        rintro rfl
        cases ended.symm.trans pending
      simp [closed, Table.get?_erase, other, Ne.symm other, ended]
  | update now =>
    by_cases forward : c.clock ≤ now
    · obtain ⟨tries, completions, passage, marks⟩ :=
        @marks_update κ link c key now addressed forward
      rw [marks]
      rw [ended] at passage
      generalize ((update now).after c link).pending.get? key = p?' at passage ⊢
      cases passage with
      | waits => exact ⟨rfl, rfl⟩
      | expires _ expires => cases expires; exact ⟨rfl, rfl⟩
    · obtain ⟨same, none⟩ := @marks_update_reversed κ link c key now forward
      rw [same]
      exact ⟨none, ended⟩

end Call

/-! ### Lives -/

/-- Whether a time is a timeout at least after an earlier one, if 64 bits can tell the deadline. -/
def Apart (timeout time next : Nat) : Prop :=
  time ≤ next ∧ (time + timeout < UInt64.size → time + timeout ≤ next)

/-- A time at which a deadline has passed is that far from the time that the deadline is for. -/
theorem Apart.of_passed {timeout time next : Nat} (forward : time ≤ next)
    (passed : timeAfter time timeout ≤ next) : Apart timeout time next :=
  ⟨forward, fun fits => (timeAfter_of_lt fits).symm.trans_le passed⟩

/-- What may be seen of a request that was last sent at a time and may be sent `left` more times,
with its message and the timeout. -/
inductive Lived (message : List UInt8) (timeout : Nat) : Nat → Nat → List (Mark κ) → Prop where
  | pending {last left : Nat} : Lived message timeout last left []
  | resent {last left now : Nat} {fault? : Option TransportFault} {marks : List (Mark κ)}
      (late : Apart timeout last now) (rest : Lived message timeout now left marks) :
      Lived message timeout last (left + 1)
        (.tried { call := .update now, time := now, message, fault? } :: marks)
  | timedOut {last now : Nat} {completion : Completion κ} (late : Apart timeout last now) :
      Lived message timeout last 0 [.ended { call := .update now, time := now, completion }]
  | answered {last left time : Nat} {eid : Eid} {answer : List UInt8} {completion : Completion κ}
      (notLate : completion.result ≠ .error .timedOut) :
      Lived message timeout last left [.ended { call := .receive eid answer, time, completion }]

theorem history_over (addressed : c.Addressed) (ended : c.pending.get? key = none)
    (calls : List (Link × Call κ)) : history key calls c = [] := by
  induction calls generalizing c with
  | nil => rfl
  | cons call rest ih =>
    rw [history]
    split
    next => rfl
    next untaken =>
      obtain ⟨none, ended⟩ := Call.stays_over addressed ended call.2 (Bool.eq_false_iff.mpr untaken)
      rw [none, ih (Call.addressed_after addressed call.2) ended]
      rfl

/-- A pending request lives on from its last attempt, which its deadline is for. -/
theorem lived_history {last : Nat} (addressed : c.Addressed)
    (pending : c.pending.get? key = some p) (past : last ≤ c.clock)
    (deadline : p.deadline = timeAfter last c.policy.timeout) (calls : List (Link × Call κ)) :
    Lived p.message c.policy.timeout last p.retriesLeft (history key calls c) := by
  induction calls generalizing c p last with
  | nil => exact .pending
  | cons call rest ih =>
    obtain ⟨link, call⟩ := call
    have addressed' : (call.after c link).Addressed := Call.addressed_after addressed call
    have policy : (call.after c link).policy = c.policy := Call.policy_after call
    obtain ⟨untaken, fares⟩ := @Call.fares κ link c key p addressed pending call
    rw [history, untaken, if_neg Bool.false_ne_true]
    have clock : c.clock ≤ (call.after c link).clock := Call.clock_le_after call
    generalize marks : call.marks key c link = marks,
      left : (call.after c link).pending.get? key = left? at fares
    cases fares with
    | unmoved =>
      have lives := ih addressed' left (past.trans clock) (by rw [policy, deadline])
      rwa [policy] at lives
    | @resent now left' _ forward overdue retries =>
      have now_le : now ≤ ((Call.update now).after c link).clock :=
        Nat.le_of_eq (Call.elapsed_after forward).clock.symm
      have lives := ih addressed' left now_le (by rw [policy])
      rw [policy] at lives
      rw [retries]
      exact .resent (.of_passed (past.trans forward) (deadline ▸ overdue)) lives
    | timedOut forward overdue retries =>
      rw [history_over addressed' left, retries]
      exact .timedOut (.of_passed (past.trans forward) (deadline ▸ overdue))
    | answered notLate =>
      rw [history_over addressed' left]
      exact .answered notLate

namespace Lived

variable {message : List UInt8} {timeout last left : Nat} {marks : List (Mark κ)}

/-- A life is a number of attempts in updates, each apart from the one before, and then one end at
most. A timeout ends it in an update that is apart from the last of all attempts. -/
theorem shape (lived : Lived message timeout last left marks) :
    ∃ (resends : List (Attempt κ)) (end? : Option (Ending κ)),
      marks = resends.map .tried ++ end?.toList.map .ended ∧ resends.length ≤ left ∧
      (∀ a ∈ resends, a.message = message ∧ a.call = .update a.time) ∧
      (last :: resends.map (·.time)).IsChain (Apart timeout) ∧
      ∀ e ∈ end?, e.completion.result = .error .timedOut →
        resends.length = left ∧ e.call = .update e.time ∧
        (last :: (resends.map (·.time) ++ [e.time])).IsChain (Apart timeout) := by
  induction lived with
  | pending => exact ⟨[], none, rfl, Nat.zero_le _, by simp, by simp, by simp⟩
  | @resent last left now fault? marks late rest ih =>
    obtain ⟨resends, end?, rfl, few, same, spaced, ends⟩ := ih
    refine ⟨{ call := .update now, time := now, message, fault? } :: resends, end?, rfl,
      Nat.succ_le_succ few, List.forall_mem_cons.mpr ⟨⟨rfl, rfl⟩, same⟩,
      List.isChain_cons_cons.mpr ⟨late, spaced⟩, ?_⟩
    intro e ended timedOut
    obtain ⟨all, call, spaced⟩ := ends e ended timedOut
    exact ⟨congrArg (· + 1) all, call, List.isChain_cons_cons.mpr ⟨late, spaced⟩⟩
  | @timedOut last now completion late =>
    refine ⟨[], some _, rfl, Nat.le_refl _, by simp, by simp, ?_⟩
    rintro e ended -
    cases ended
    exact ⟨rfl, rfl, by simpa using late⟩
  | answered notLate =>
    refine ⟨[], some _, rfl, Nat.zero_le _, by simp, by simp, ?_⟩
    rintro e ended timedOut
    cases ended
    exact absurd timedOut notLate

end Lived

/-- Times that are a timeout apart take as long as there are timeouts between them. -/
theorem le_of_apart {timeout first last : Nat} {times : List Nat}
    (apart : (first :: (times ++ [last])).IsChain (Apart timeout))
    (fit : ∀ time ∈ first :: times, time + timeout < UInt64.size) :
    first + (times.length + 1) * timeout ≤ last := by
  induction times generalizing first with
  | nil =>
    have next := (List.isChain_cons_cons.mp apart).1.2 (fit first List.mem_cons_self)
    simpa using next
  | cons time rest ih =>
    obtain ⟨here, apart⟩ := List.isChain_cons_cons.mp apart
    obtain ⟨fits, fit⟩ := List.forall_mem_cons.mp fit
    have next := here.2 fits
    have later := ih apart fit
    rw [List.length_cons, Nat.succ_mul]
    omega

/-! ### Overdue requests -/

/-- Time goes on in an update that succeeds. -/
theorem forward_of_update {now : Nat} {completions : List (Completion κ)}
    (result : (update now).result c link [] = .ok completions) : c.clock ≤ now := by
  have lapse := Act.ends_iff.mp (@ends_update κ link [] c now)
  rw [result] at lapse
  generalize (update now).state c link [] = c' at lapse
  cases lapse with
  | expired forward => exact forward

/-- An update sends or ends each request that is overdue, and sends nothing else. -/
theorem update_overdue {now : Nat} {completions : List (Completion κ)} (addressed : c.Addressed)
    (result : (update now).result c link [] = .ok completions) :
    (∀ key p, c.pending.get? key = some p → p.deadline ≤ now →
      (∃ fault?, ⟨key.eid, p.message, fault?⟩ ∈ ((update now).journal c link []).tries) ∨
        { key, cookie := p.cookie, result := .error .timedOut } ∈ completions) ∧
    ∀ t ∈ ((update now).journal c link []).tries, ∃ key p, c.pending.get? key = some p ∧
      p.deadline ≤ now ∧ t.eid = key.eid ∧ t.message = p.message := by
  have forward := forward_of_update result
  have passes : Act.Ends (update now) c link [] _ := ends_update_passage addressed forward
  obtain ⟨completions', tries, result', same, addressedTries, passage⟩ := Act.ends_iff.mp passes
  cases result.symm.trans result'
  rw [show ((update now).journal c link []).tries = tries from same]
  constructor
  · intro key p pending overdue
    have passage := passage key
    rw [pending] at passage
    rcases passage.acts overdue with ⟨fault?, tried⟩ | ended
    · exact .inl ⟨fault?, List.mem_of_mem_filter tried⟩
    · exact .inr (List.mem_of_mem_filter ended)
  · intro t mem
    obtain ⟨key, isAt⟩ := addressedTries t mem
    exact ⟨key, (passage key).overdue (List.mem_filter.mpr ⟨mem, isAt⟩)⟩

/-! ### Runs -/

/-- A request whose deadline 64 bits cannot tell is overdue at once: the next update sends or ends
it. -/
theorem update_acts_at_once {now last : Nat} {completions : List (Completion κ)}
    (addressed : c.Addressed) (pending : c.pending.get? key = some p)
    (deadline : p.deadline = timeAfter last c.policy.timeout)
    (wraps : UInt64.size ≤ last + c.policy.timeout) (word : c.policy.timeout < UInt64.size)
    (past : last ≤ c.clock) (result : (update now).result c link [] = .ok completions) :
    (∃ fault?, ⟨key.eid, p.message, fault?⟩ ∈ ((update now).journal c link []).tries) ∨
      { key, cookie := p.cookie, result := .error .timedOut } ∈ completions := by
  refine (update_overdue addressed result).1 key p pending ?_
  rw [deadline]
  exact (timeAfter_le_self wraps word).trans (past.trans (forward_of_update result))

/-- In every run of a correlator, while others change its pools at will, a request is given to the
transport when it is registered, and after that in at most as many updates as there are retries,
always as the same bytes. It times out in an update only, after all retries, and is not heard of
after its end. An update acts on all requests that are overdue, and sends nothing else.

As long as deadlines have 64 bits, each attempt and the end are a timeout at least after the
attempt before, and no update leaves a request overdue. -/
theorem requests_retried (ids : Pools) (policy : RetryPolicy) (clock : Nat)
    (calls : List (Link × Call κ)) (waits : 0 < policy.timeout) :
    let c := Call.run calls { ids, policy, clock }
    (∀ (eid : Eid) (request : Request) (cookie : κ) (link : Link) (iid : InstanceId)
      (later : List (Link × Call κ)),
      (register eid request cookie).result c link [] = .ok iid →
      ∃ message, { request with instanceId := iid.toByte }.toBytes = .ok message ∧
        (register eid request cookie).journal c link [] = [.sent eid message none] ∧
        ∃ (resends : List (Attempt κ)) (end? : Option (Ending κ)),
          history ⟨eid, iid⟩ later ((register eid request cookie).state c link []) =
            resends.map .tried ++ end?.toList.map .ended ∧
          resends.length ≤ policy.retries ∧
          (∀ a ∈ resends, a.message = message ∧ a.call = .update a.time) ∧
          (c.clock :: resends.map (·.time)).IsChain (Apart policy.timeout) ∧
          ∀ e ∈ end?, e.completion.result = .error .timedOut →
            resends.length = policy.retries ∧ e.call = .update e.time ∧
            (c.clock :: (resends.map (·.time) ++ [e.time])).IsChain (Apart policy.timeout) ∧
            ((∀ time ∈ c.clock :: resends.map (·.time),
                time + policy.timeout < UInt64.size) →
              c.clock + (policy.retries + 1) * policy.timeout ≤ e.time)) ∧
    ∀ (now : Nat) (link : Link) (completions : List (Completion κ)),
      (update now).result c link [] = .ok completions →
      (∀ key p, c.pending.get? key = some p → p.deadline ≤ now →
        (∃ fault?, ⟨key.eid, p.message, fault?⟩ ∈ ((update now).journal c link []).tries) ∨
          { key, cookie := p.cookie, result := .error .timedOut } ∈ completions) ∧
      (∀ t ∈ ((update now).journal c link []).tries, ∃ key p, c.pending.get? key = some p ∧
        p.deadline ≤ now ∧ t.eid = key.eid ∧ t.message = p.message) ∧
      (now + policy.timeout < UInt64.size →
        ∀ key p, ((update now).state c link []).pending.get? key = some p → now < p.deadline) := by
  intro c
  have fresh : Addressed ({ ids, policy, clock } : Correlator κ) := by
    intro key p pending
    cases pending
  have addressed : c.Addressed := Call.addressed_run fresh calls
  have kept : c.policy = policy := Call.policy_run calls
  constructor
  · intro eid request cookie link iid later registered
    obtain ⟨_, journal, _, sent⟩ :=
      Act.ends_iff.mp (@ends_register_events κ link [] c eid request cookie)
    obtain ⟨message, rfl, written, opened⟩ := sent iid registered
    have addressed' : (c.opened ⟨eid, iid⟩ request message cookie).Addressed :=
      opened ▸ addressed.registration (registration c link [] eid request cookie)
    have lived : Lived message c.policy.timeout c.clock c.policy.retries
        (history ⟨eid, iid⟩ later (c.opened ⟨eid, iid⟩ request message cookie)) :=
      lived_history addressed' Table.get?_insert_self (Nat.le_refl c.clock) rfl later
    rw [kept, ← opened] at lived
    obtain ⟨resends, end?, same, few, alike, spaced, ends⟩ := lived.shape
    refine ⟨message, written, journal, resends, end?, same, few, alike, spaced, ?_⟩
    intro e ended timedOut
    obtain ⟨all, call, apart⟩ := ends e ended timedOut
    refine ⟨all, call, apart, ?_⟩
    intro fit
    have total := le_of_apart apart fit
    rwa [List.length_map, all] at total
  · intro now link completions result
    obtain ⟨acts, only⟩ := update_overdue addressed result
    refine ⟨acts, only, ?_⟩
    intro fits key p pending
    have elapsed : c.Elapsed now ((update now).state c link []) :=
      Call.elapsed_after (forward_of_update result)
    rcases elapsed.cases pending with ⟨_, early⟩ | ⟨_, _, _, _, deadline⟩
    · exact early
    · rw [deadline, kept, timeAfter_of_lt fits]
      exact Nat.lt_add_of_pos_right waits

/-- A request that nobody answers; the first resend fails. -/
def unanswered : List (Link × Call Unit) :=
  [(.reliable, .update 50), (fun _ _ => some (.named "TxFailure"), .update 110),
    (.reliable, .update 150), (.reliable, .update 260), (.reliable, .update 400)]

/-- A policy that resends a request twice. -/
def twice : RetryPolicy := { timeout := 100, retries := 2 }

/-- It is sent three times in all before it ends. -/
theorem requests_retried_unanswered :
    let c : Correlator Unit := Call.run [] { policy := twice, clock := 5 }
    let registration := register 8 (Request.ofPayload 2 0x11 [1]) ()
    (registration.result c .reliable []).toOption = some 0 ∧
      ∃ (resends : List (Attempt Unit)) (e : Ending Unit),
        history ⟨8, 0⟩ unanswered (registration.state c .reliable []) =
          resends.map .tried ++ [.ended e] ∧
        resends.length = 2 ∧ (5 :: resends.map (·.time)).IsChain (Apart 100) := by
  intro c registration
  have taken : (registration.result c .reliable []).toOption = some 0 := by decide +kernel
  have registered : registration.result c .reliable [] = .ok 0 := by
    cases result : registration.result c .reliable [] with
    | ok => rw [result] at taken; cases taken; rfl
    | error => rw [result] at taken; cases taken
  obtain ⟨message, _, _, resends, end?, same, few, _, spaced, _⟩ :=
    (requests_retried {} twice 5 [] (by decide)).1 8 _ () .reliable 0 unanswered registered
  have seen : (history ⟨8, 0⟩ unanswered (registration.state c .reliable [])).length = 3 := by
    decide +kernel
  have total := congrArg List.length same
  rw [seen, List.length_append, List.length_map, List.length_map] at total
  have few : resends.length ≤ 2 := few
  cases end? with
  | none => simp at total; omega
  | some e =>
    have two : resends.length = 2 := by simp at total; omega
    exact ⟨taken, resends, e, same, two, spaced⟩

/-- When a request was sent again, if that is what is seen of it. -/
def Mark.resent? : Mark κ → Option Nat
  | .tried attempt => some attempt.time
  | .ended _ => none

/-- Fifty milliseconds before the clock is full the deadline has more than 64 bits. The request is
sent again a millisecond later, and is overdue still. -/
theorem resent_before_timeout :
    let full := UInt64.size
    let c : Correlator Unit := Call.run [] { policy := twice, clock := full - 50 }
    let registration := register 8 (Request.ofPayload 2 0x11 [1]) ()
    let c₁ := registration.state c .reliable []
    (registration.result c .reliable []).toOption = some 0 ∧
      (history ⟨8, 0⟩ [(.reliable, .update (full - 49))] c₁).filterMap Mark.resent? = [full - 49] ∧
      full - 49 < c.clock + c.policy.timeout ∧
      ((update (full - 49)).state c₁ .reliable []).pending.values.map (·.deadline) = [51] := by
  decide +kernel

end TerminusMonitor
