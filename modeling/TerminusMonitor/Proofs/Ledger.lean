import TerminusMonitor.Proofs.Correlator

/-!
The books of a correlator.

A `Ledger` runs a correlator through any calls, over any links, while others change
its pools at will. It enters each request that was registered, and each completion
with what brought it about.

* `Ledger.balanced_enter`: a call keeps the books balanced;
* `registrations_settled_once`: in every run the requests registered are those that
  were completed, each once and as it was registered, and those still pending.
-/

namespace TerminusMonitor

open Correlator

variable {κ : Type}

/-- A call of a correlator, or a change that others make to its pools. -/
inductive Call (κ : Type) where
  | register (eid : Eid) (request : Request) (cookie : κ)
  | receive (eid : Eid) (message : List UInt8)
  | update (now : Nat)
  | share (ids : Pools)

/-- What brought a completion about. -/
inductive Cause where
  | answer (eid : Eid) (message : List UInt8)
  | expiry

/-- Whether a cause accounts for the result of a request. -/
def Cause.Explains (t : Ticket κ) (result : Except Fault Response) : Cause → Prop
  | .answer eid message =>
    ∃ header, Header.ofBytes message = .ok header ∧ header.request = false ∧
      eid = t.key.eid ∧ header.instanceId = t.key.iid.toByte ∧
      header.type = t.type ∧ header.command = t.command ∧
      result = (Response.ofBytes message).mapError .invalid ∧ result ≠ .error .timedOut
  | .expiry => result = .error .timedOut

/-- An entry settles a request: it gives back the key and the cookie of the request,
and its cause accounts for the result. -/
def Ticket.SettledBy (t : Ticket κ) (entry : Completion κ × Cause) : Prop :=
  t.Closes entry.1 ∧ entry.2.Explains t entry.1.result

/-- A correlator with the requests registered and the completions emitted so far. -/
structure Ledger (κ : Type) where
  correlator : Correlator κ
  opened : List (Ticket κ) := []
  settled : List (Completion κ × Cause) := []

namespace Ledger

/-- Makes a call over a link, and enters what comes of it. -/
def enter (l : Ledger κ) (link : Link) : Call κ → Ledger κ
  | .register eid request cookie =>
    let act := register eid request cookie
    { l with
      correlator := act.state l.correlator link []
      opened := l.opened ++ (act.result l.correlator link []).toOption.toList.map fun iid =>
        { key := ⟨eid, iid⟩, type := request.type, command := request.command, cookie } }
  | .receive eid message =>
    let task := receive eid message
    { l with
      correlator := task.state l.correlator link []
      settled := l.settled ++
        (task.result l.correlator link []).toList.map (·, .answer eid message) }
  | .update now =>
    let act := update now
    { l with
      correlator := act.state l.correlator link []
      settled := l.settled ++
        ((act.result l.correlator link []).toOption.getD []).map (·, .expiry) }
  | .share ids => { l with correlator := { l.correlator with ids } }

/-- Makes calls one after the other, each over a link of its own. -/
def run (calls : List (Link × Call κ)) (l : Ledger κ) : Ledger κ :=
  calls.foldl (fun l call => l.enter call.1 call.2) l

/-- Each request that was registered is settled by one entry or still pending. -/
def Balanced (l : Ledger κ) : Prop :=
  ∃ tickets, List.Forall₂ Ticket.SettledBy tickets l.settled ∧
    l.opened.Perm (tickets ++ l.correlator.tickets)

end Ledger

/-! ### Single calls -/

theorem InstanceId.toByte_of_ofByte? {b : UInt8} {iid : InstanceId}
    (read : ofByte? b = some iid) : b = iid.toByte := by
  unfold ofByte? at read
  split at read
  · cases read
    simp [toByte]
  · cases read

/-- A message settles the pending request that it answers, or changes nothing. -/
theorem Correlator.Reception.settles {c c' : Correlator κ} {eid : Eid} {message : List UInt8}
    {completion? : Option (Completion κ)} (reception : Reception c eid message completion? c') :
    completion? = none ∧ c' = c ∨
      ∃ t completion, completion? = some completion ∧
        t.SettledBy (completion, .answer eid message) ∧ c.tickets.Perm (t :: c'.tickets) := by
  cases reception with
  | ignored => exact .inl ⟨rfl, rfl⟩
  | @answered header iid p read response id pending type command =>
    refine .inr ⟨_, _, rfl, ⟨⟨rfl, rfl⟩, ?_⟩, tickets_closed pending⟩
    refine ⟨header, read, response, rfl, InstanceId.toByte_of_ofByte? id, type.symm,
      command.symm, rfl, ?_⟩
    cases Response.ofBytes message <;> exact nofun

/-- Completions that only say that no response came are settled by expiry. -/
theorem settledBy_expiry {tickets : List (Ticket κ)} {completions : List (Completion κ)}
    (closes : List.Forall₂ Ticket.Closes tickets completions)
    (late : ∀ completion ∈ completions, completion.result = .error .timedOut) :
    List.Forall₂ Ticket.SettledBy tickets (completions.map (·, .expiry)) := by
  induction closes with
  | nil => exact .nil
  | cons closes _ ih =>
    obtain ⟨lateFirst, lateRest⟩ := List.forall_mem_cons.mp late
    exact .cons ⟨closes, lateFirst⟩ (ih lateRest)

namespace Ledger

variable {l : Ledger κ}

/-- Entries for requests that are pending no longer keep the books balanced. -/
theorem Balanced.settle {tickets : List (Ticket κ)} {entries : List (Completion κ × Cause)}
    {c : Correlator κ} (balanced : l.Balanced)
    (settled : List.Forall₂ Ticket.SettledBy tickets entries)
    (perm : l.correlator.tickets.Perm (tickets ++ c.tickets)) :
    Balanced { l with correlator := c, settled := l.settled ++ entries } := by
  obtain ⟨earlier, settledEarlier, perm'⟩ := balanced
  refine ⟨earlier ++ tickets, List.rel_append settledEarlier settled, ?_⟩
  rw [List.append_assoc]
  exact perm'.trans (perm.append_left _)

/-- The books of a correlator that has the same requests are balanced alike. -/
theorem Balanced.unchanged {c : Correlator κ} (balanced : l.Balanced)
    (same : c.tickets = l.correlator.tickets) : Balanced { l with correlator := c } := by
  obtain ⟨tickets, settled, perm⟩ := balanced
  exact ⟨tickets, settled, same ▸ perm⟩

/-- A call keeps the books balanced. -/
theorem balanced_enter {link : Link} {call : Call κ} (balanced : l.Balanced) :
    (l.enter link call).Balanced := by
  cases call with
  | register eid request cookie =>
    have registration := registration l.correlator link [] eid request cookie
    simp only [enter]
    generalize (register eid request cookie).result l.correlator link [] = result,
      (register eid request cookie).state l.correlator link [] = c at registration ⊢
    cases registration with
    | sent free fresh written =>
      obtain ⟨tickets, settled, perm⟩ := balanced
      refine ⟨tickets, settled, (perm.append_right _).trans ?_⟩
      rw [List.append_assoc]
      exact (List.perm_append_singleton _ _).trans (tickets_opened fresh).symm |>.append_left _
    | exhausted => simpa [Except.toOption] using balanced
    | duplicate => simpa [Except.toOption] using balanced.unchanged tickets_refused
    | unwritten => simpa [Except.toOption] using balanced.unchanged tickets_refused
    | unsent => simpa [Except.toOption] using balanced.unchanged tickets_refused
  | receive eid message =>
    have reception : Reception l.correlator eid message
      ((receive eid message).result l.correlator link [])
      ((receive eid message).state l.correlator link []) := ends_receive
    simp only [enter]
    rcases reception.settles with ⟨ignored, same⟩ | ⟨t, completion, answered, settled, perm⟩
    · rw [ignored, same]
      simpa using balanced
    · rw [answered]
      exact balanced.settle (.cons settled .nil) perm
  | update now =>
    have lapse : Lapse l.correlator now
      ((update now).result l.correlator link [])
      ((update now).state l.correlator link []) := ends_update
    simp only [enter]
    generalize (update now).result l.correlator link [] = result,
      (update now).state l.correlator link [] = c at lapse ⊢
    cases lapse with
    | reversed => simpa [Except.toOption] using balanced
    | @expired completions _ forward sheds late =>
      obtain ⟨tickets, closes, perm⟩ := sheds.tickets
      exact balanced.settle (settledBy_expiry closes late) perm
  | share ids => exact balanced.unchanged rfl

/-- A run keeps the books balanced. -/
theorem balanced_run {calls : List (Link × Call κ)} (balanced : l.Balanced) :
    (run calls l).Balanced := by
  induction calls generalizing l with
  | nil => exact balanced
  | cons call rest ih => exact ih (balanced_enter balanced)

end Ledger

/-! ### Runs from the start -/

/-- In every run the requests registered are, each once, those that an entry settles
and those still pending. A message settles the pending request that it answers, or
leaves the requests and the pools as they are. -/
theorem registrations_settled_once (ids : Pools) (policy : RetryPolicy) (clock : Nat)
    (calls : List (Link × Call κ)) :
    let l := Ledger.run calls { correlator := { ids, policy, clock } }
    l.Balanced ∧
      ∀ eid message link journal,
        Task.Ends (receive eid message) l.correlator link journal fun completion? after _ =>
          completion? = none ∧ after = l.correlator ∨
            ∃ t ∈ l.correlator.tickets, ∃ completion, completion? = some completion ∧
              t.SettledBy (completion, .answer eid message) := by
  refine ⟨Ledger.balanced_run ⟨[], .nil, .refl _⟩, ?_⟩
  intro eid message link journal
  refine ends_receive.mono ?_
  intro completion? after _ reception
  rcases reception.settles with ignored | ⟨t, completion, answered, settled, perm⟩
  · exact .inl ignored
  · exact .inr ⟨t, perm.symm.subset List.mem_cons_self, completion, answered, settled⟩

end TerminusMonitor
