import TerminusMonitor.Proofs.Outstanding
import TerminusMonitor.Simulation.Peer
import TerminusMonitor.Simulation.Scripted

/-!
Responses in another order.

A response ends one request and concerns the one sensor that the request was for. No two
pending requests are for the reading of one sensor (`Scene.Marked`), so that responses to
different requests do not get in each other's way, unless a walk is under way: it goes on
with whatever comes first.

* `Correlator.answer?`, `Correlator.ends_receive_answer?`: what a message brings, as a function
  of the requests;
* `Monitor.delivered_comm`: two responses to different requests may change places;
* `responses_commute`: responses of which no two answer the same request lead to the same
  monitor in every order.
-/

namespace TerminusMonitor

variable {μ κ : Type} {link : Link} {journal : Journal}

/-! ### Changes that do not meet -/

theorem Table.modify_comm {ν : Type} [Ranked κ] [DecidableEq κ] {t : Table κ ν} {k k' : κ}
    {f g : ν → ν} (meet : k = k' → ∀ v, f (g v) = g (f v)) :
    (t.modify k f).modify k' g = (t.modify k' g).modify k f := by
  apply Table.ext_get?
  intro other
  simp only [Table.get?_modify]
  by_cases same : k = k'
  · subst same
    by_cases hit : other = k
    · simp only [hit, if_true, Option.map_map]
      congr 1
      funext v
      exact (meet rfl v).symm
    · simp only [hit, if_false]
  · by_cases first : other = k
    · subst first
      simp only [same, if_false, if_true]
    · simp only [first, if_false, Ne.symm same]

theorem Table.erase_comm {ν : Type} [Ranked κ] [DecidableEq κ] {t : Table κ ν} {k k' : κ} :
    (t.erase k).erase k' = (t.erase k').erase k := by
  apply Table.ext_get?
  intro other
  simp only [Table.get?_erase]
  split <;> split <;> rfl

theorem IdMask.free_comm {mask : IdMask} {iid iid' : InstanceId} :
    (mask.free iid).free iid' = (mask.free iid').free iid := by
  unfold free
  rw [BitVec.and_assoc, BitVec.and_comm (~~~_), ← BitVec.and_assoc]

theorem IdMask.free_eq_self {mask : IdMask} {iid : InstanceId} (free : mask.holds iid = false) :
    mask.free iid = mask := by
  apply BitVec.eq_of_getLsbD_eq
  intro i lt
  have freed := @holds_free mask iid ⟨i, lt⟩
  simp only [holds] at freed free
  rw [freed]
  by_cases same : (⟨i, lt⟩ : InstanceId) = iid
  · subst same
    simp [free]
  · simp [same]

namespace Pools

variable {p : Pools}

theorem masks_released {eid : Eid} {iid : InstanceId} :
    (p.released eid iid).masks = p.masks.modify eid (·.free iid) := by
  unfold released
  cases known : p.masks.get? eid with
  | none =>
    have unheld : p.holds eid iid = false := by
      simp [holds, Pools.mask, known, IdMask.holds]
    rw [if_neg (by simp [unheld]), Table.modify_eq_self]
    intro mask found
    cases known.symm.trans found
  | some mask =>
    have own : p.mask eid = mask := by simp [Pools.mask, known]
    split
    next =>
      apply Table.ext_get?
      intro other
      simp only [set, Table.get?_insert, Table.get?_modify, own, known, Option.map_some]
    next unheld =>
      symm
      apply Table.modify_eq_self
      intro mask' found
      cases known.symm.trans found
      apply IdMask.free_eq_self
      simpa [holds, own] using unheld

theorem waiting_released {eid : Eid} {iid : InstanceId} :
    (p.released eid iid).waiting = if p.holds eid iid then [] else p.waiting := by
  unfold released
  split <;> rfl

/-- Different IDs may be freed in either order. -/
theorem released_comm {key key' : RequestKey} (ne : key ≠ key') :
    (p.released key.eid key.iid).released key'.eid key'.iid =
      (p.released key'.eid key'.iid).released key.eid key.iid := by
  have masks : ((p.released key.eid key.iid).released key'.eid key'.iid).masks =
      ((p.released key'.eid key'.iid).released key.eid key.iid).masks := by
    simp only [masks_released]
    exact Table.modify_comm fun _ _ => IdMask.free_comm
  have waiting : ((p.released key.eid key.iid).released key'.eid key'.iid).waiting =
      ((p.released key'.eid key'.iid).released key.eid key.iid).waiting := by
    simp only [waiting_released, holds_released, ne, Ne.symm ne]
    cases p.holds key.eid key.iid <;> cases p.holds key'.eid key'.iid <;> rfl
  generalize (p.released key.eid key.iid).released key'.eid key'.iid = q,
    (p.released key'.eid key'.iid).released key.eid key.iid = q' at masks waiting
  cases q
  cases q'
  cases masks
  cases waiting
  rfl

end Pools

/-! ### What a response brings -/

/-- Whether a message is the response to a request: it comes from the endpoint of the request,
with its instance ID, type and command. -/
def Pending.isAnsweredBy (p : Pending κ) (key : RequestKey) (mail : Mail) : Bool :=
  match Header.ofBytes mail.2 with
  | .error _ => false
  | .ok header =>
    !header.request && mail.1 == key.eid &&
      InstanceId.ofByte? header.instanceId == some key.iid &&
      header.type == p.type && header.command == p.command

namespace Correlator

variable {c : Correlator κ} {mail : Mail}

/-- The outcome that a message brings, if it is the response to a pending request. -/
def answer? (c : Correlator κ) (mail : Mail) : Option (Completion κ) :=
  match Header.ofBytes mail.2 with
  | .error _ => none
  | .ok header =>
    if header.request then none
    else
      (InstanceId.ofByte? header.instanceId).bind fun iid =>
        (c.pending.get? ⟨mail.1, iid⟩).bind fun p =>
          if p.type = header.type ∧ p.command = header.command then
            some {
              key := ⟨mail.1, iid⟩, cookie := p.cookie
              result := (Response.ofBytes mail.2).mapError .invalid }
          else none

/-- The requests that are left after a message. -/
def afterMail (c : Correlator κ) (mail : Mail) : Correlator κ :=
  match c.answer? mail with
  | none => c
  | some completion => c.closed completion.key

theorem ends_receive_answer? :
    Task.Ends (receive mail.1 mail.2) c link journal fun completion? c' _ =>
      completion? = c.answer? mail ∧ c' = c.afterMail mail := by
  unfold receive afterMail answer?
  cases read : Header.ofBytes mail.2 with
  | error fault => simp
  | ok header =>
    dsimp only
    cases response : header.request with
    | true => simp
    | false =>
      cases id : InstanceId.ofByte? header.instanceId with
      | none => simp
      | some iid =>
        simp only [Bool.false_eq_true, if_false, Task.ends_bind, Task.ends_get, Option.bind_some]
        cases pending : c.pending.get? ⟨mail.1, iid⟩ with
        | none => simp
        | some p =>
          simp only [Option.bind_some]
          by_cases same : p.type = header.type ∧ p.command = header.command
          · obtain ⟨type, command⟩ := same
            simp only [type, command, ne_eq, not_true_eq_false, or_self, if_false, and_self,
              if_true, Task.ends_bind]
            refine ends_finish.mono ?_
            rintro _ _ _ rfl
            cases body : Response.ofBytes mail.2 with
            | error fault => simp [Except.mapError]
            | ok response => simp [Except.mapError]
          · have differ : p.type ≠ header.type ∨ p.command ≠ header.command :=
              Decidable.not_and_iff_not_or_not.mp same
            simp [differ, same]

/-- What a message brings is the outcome of a pending request that it is the response to. -/
theorem answer?_some {completion : Completion κ} (brings : c.answer? mail = some completion) :
    ∃ p, c.pending.get? completion.key = some p ∧ completion.cookie = p.cookie ∧
      p.isAnsweredBy completion.key mail = true := by
  unfold answer? at brings
  cases read : Header.ofBytes mail.2 with
  | error fault => simp [read] at brings
  | ok header =>
    simp only [read] at brings
    split at brings
    next => cases brings
    next response =>
      obtain ⟨iid, id, brings⟩ := Option.bind_eq_some_iff.mp brings
      obtain ⟨p, pending, brings⟩ := Option.bind_eq_some_iff.mp brings
      split at brings
      next same =>
        cases brings
        refine ⟨p, pending, rfl, ?_⟩
        simp [Pending.isAnsweredBy, read, response, id, same.1, same.2]
      next => cases brings

/-- The end of another request does not matter to a message. -/
theorem answer?_closed {key : RequestKey}
    (other : ∀ completion, c.answer? mail = some completion → completion.key ≠ key) :
    (c.closed key).answer? mail = c.answer? mail := by
  unfold answer? at other ⊢
  cases read : Header.ofBytes mail.2 with
  | error fault => rfl
  | ok header =>
    simp only [read] at other ⊢
    cases response : header.request with
    | true => rfl
    | false =>
      simp only [response, Bool.false_eq_true, if_false] at other ⊢
      cases id : InstanceId.ofByte? header.instanceId with
      | none => rfl
      | some iid =>
        simp only [id, Option.bind_some, closed, Table.get?_erase] at other ⊢
        by_cases own : (⟨mail.1, iid⟩ : RequestKey) = key
        · -- The message is not the response to the request that ended.
          rw [if_pos own, Option.bind_none]
          symm
          apply Option.eq_none_iff_forall_ne_some.mpr
          intro completion brings
          apply other completion brings
          obtain ⟨p, _, brings⟩ := Option.bind_eq_some_iff.mp brings
          split at brings
          next => cases brings; exact own
          next => cases brings
        · rw [if_neg own]

theorem closed_comm {key key' : RequestKey} (ne : key ≠ key') :
    (c.closed key).closed key' = (c.closed key').closed key := by
  simp only [closed, Pools.released_comm ne, Table.erase_comm (k := key)]

end Correlator

/-! ### Two responses -/

theorem Watch.settled_eq (w : Watch κ) (key : SensorKey) (result : Except Fault Response) :
    w.settled key result =
      { w with
        poller := { w.poller with outstanding := w.poller.outstanding.erase key }
        termini := w.termini.modify key.tid fun t =>
          { t with sensors := t.sensors.modify key.sensor (·.taken result) } } := by
  rw [← termini_settled]
  unfold settled
  dsimp only
  split <;> rfl

/-- Readings of different sensors may be taken in in either order. -/
theorem Watch.settled_comm {w : Watch κ} {key key' : SensorKey}
    {result result' : Except Fault Response} (ne : key ≠ key') :
    (w.settled key result).settled key' result' = (w.settled key' result').settled key result := by
  simp only [settled_eq]
  rw [Table.erase_comm (k := key), Table.modify_comm (k := key.tid)]
  intro same t
  dsimp only
  rw [Table.modify_comm]
  intro sensor
  exact absurd (SensorKey.eq_iff.mpr ⟨same, sensor.symm⟩) ne

namespace Monitor

variable {m : Monitor μ} {mail mail' : Mail} {completion completion' : Completion Purpose}

/-- Whether no walk is under way. -/
def IsStill (m : Monitor μ) : Prop := ∀ tid, m.walks.get? tid = none

/-- Without a walk only readings matter. -/
theorem IsStill.settled_eq (still : m.IsStill) :
    m.settled completion =
      match completion.cookie with
      | .reading key => { m with toWatch := m.toWatch.settled key completion.result }
      | _ => m := by
  unfold Monitor.settled
  cases completion.cookie with
  | reading key => rfl
  | record tid handle => simp only [recorded, still tid]
  | effecter path property => rfl

theorem IsStill.settled (still : m.IsStill) : (m.settled completion).IsStill := by
  rw [still.settled_eq]
  cases completion.cookie <;> exact still

/-- Requests do not matter to an outcome. -/
theorem IsStill.settled_withRequests (still : m.IsStill) (c : Correlator Purpose) :
    (m.withRequests c).settled completion = (m.settled completion).withRequests c := by
  have still' : (m.withRequests c).IsStill := still
  rw [still.settled_eq, still'.settled_eq]
  cases completion.cookie with
  | reading key => simp only [Watch.settled_eq, withRequests]
  | record tid handle => rfl
  | effecter path property => rfl

/-- Outcomes may be taken in in either order, unless both are readings of one sensor. -/
theorem IsStill.settled_comm (still : m.IsStill)
    (apart : ∀ key key', completion.cookie = .reading key → completion'.cookie = .reading key' →
      key ≠ key') :
    (m.settled completion).settled completion' = (m.settled completion').settled completion := by
  rw [still.settled.settled_eq, still.settled.settled_eq, still.settled_eq, still.settled_eq]
  cases purpose : completion.cookie with
  | reading key =>
    cases purpose' : completion'.cookie with
    | reading key' => simp only [Watch.settled_comm (apart key key' purpose purpose')]
    | record tid handle => rfl
    | effecter path property => rfl
  | record tid handle => rfl
  | effecter path property => rfl

/-- Only the requests that come last count. -/
theorem IsStill.settled_twice (still : m.IsStill) (c c' : Correlator Purpose) :
    (((m.withRequests c).settled completion).withRequests c').settled completion' =
      ((m.settled completion).settled completion').withRequests c' := by
  have opened : ((m.settled completion).withRequests c').settled completion' =
      ((m.settled completion).settled completion').withRequests c' :=
    still.settled.settled_withRequests c'
  rw [still.settled_withRequests, ← opened]
  rfl

/-- The monitor after a message that is no request. -/
def delivered (m : Monitor μ) (mail : Mail) : Monitor μ :=
  match m.answer? mail with
  | none => m
  | some completion => (m.withRequests (m.closed completion.key)).settled completion

theorem delivered_none (brings : m.answer? mail = none) : m.delivered mail = m := by
  rw [delivered, brings]

theorem delivered_some (brings : m.answer? mail = some completion) :
    m.delivered mail = (m.withRequests (m.closed completion.key)).settled completion := by
  rw [delivered, brings]

theorem IsStill.delivered (still : m.IsStill) (mail : Mail) : (m.delivered mail).IsStill := by
  cases brings : m.answer? mail with
  | none => rwa [delivered_none brings]
  | some completion =>
    rw [delivered_some brings]
    exact IsStill.settled (m := m.withRequests _) still

/-- The requests that are pending after a message were pending before. -/
theorem pending_of_delivered {key : RequestKey} {p : Pending Purpose}
    (pending : (m.delivered mail).pending.get? key = some p) : m.pending.get? key = some p := by
  cases brings : m.answer? mail with
  | none => rwa [delivered_none brings] at pending
  | some completion =>
    rw [delivered_some brings, settled_toCorrelator] at pending
    exact Table.get?_erase_some pending

theorem marked_delivered (marked : Scene.Marked ⟨m, []⟩) (mail : Mail) :
    Scene.Marked ⟨m.delivered mail, []⟩ := by
  cases brings : m.answer? mail with
  | none => rwa [delivered_none brings]
  | some completion =>
    rw [delivered_some brings]
    obtain ⟨p, pending, cookie, _⟩ := Correlator.answer?_some brings
    exact (marked.move (.shed pending cookie (.inl rfl))).settled

/-- A message brings the same after one that answers another request. -/
theorem answer?_delivered
    (apart : ∀ {completion completion'}, m.answer? mail = some completion →
      m.answer? mail' = some completion' → completion'.key ≠ completion.key) :
    (m.delivered mail).answer? mail' = m.answer? mail' := by
  cases brings : m.answer? mail with
  | none => rw [delivered_none brings]
  | some completion =>
    rw [delivered_some brings, settled_toCorrelator]
    apply Correlator.answer?_closed
    intro completion' brings'
    exact apart brings brings'

/-- Two responses to different requests may change places. -/
theorem IsStill.delivered_comm (still : m.IsStill) (marked : Scene.Marked ⟨m, []⟩)
    (apart : ∀ {completion completion'}, m.answer? mail = some completion →
      m.answer? mail' = some completion' → completion'.key ≠ completion.key) :
    (m.delivered mail).delivered mail' = (m.delivered mail').delivered mail := by
  have later : (m.delivered mail).answer? mail' = m.answer? mail' := answer?_delivered apart
  have later' : (m.delivered mail').answer? mail = m.answer? mail :=
    answer?_delivered fun brings' brings => (apart brings brings').symm
  cases brings : m.answer? mail with
  | none =>
    rw [delivered_none brings]
    rw [brings] at later'
    rw [delivered_none later']
  | some completion =>
    cases brings' : m.answer? mail' with
    | none =>
      rw [delivered_none brings']
      rw [brings'] at later
      rw [delivered_none later]
    | some completion' =>
      have ne := apart brings brings'
      -- No two requests are for the reading of one sensor.
      have sensors : ∀ key key', completion.cookie = .reading key →
          completion'.cookie = .reading key' → key ≠ key' := by
        rintro key _ purpose purpose' rfl
        obtain ⟨p, pending, cookie, _⟩ := Correlator.answer?_some brings
        obtain ⟨p', pending', cookie', _⟩ := Correlator.answer?_some brings'
        apply ne
        exact marked.pending_unique ⟨p', pending', cookie' ▸ purpose'⟩
          ⟨p, pending, cookie ▸ purpose⟩
      rw [delivered_some (later.trans brings'), delivered_some (later'.trans brings),
        delivered_some brings, delivered_some brings', settled_toCorrelator, settled_toCorrelator,
        still.settled_twice, still.settled_twice, still.settled_comm sensors]
      exact congrArg _ (Correlator.closed_comm ne.symm)

end Monitor

/-! ### Any number of responses -/

/-- Messages that arrive one after the other. -/
def Turn.deliveries (link : Link) (mails : List Mail) : List (Turn μ) :=
  mails.map fun mail => { operation := .message mail.1 mail.2, link }

namespace Monitor

variable {m : Monitor μ}

theorem IsStill.ends_advance (still : m.IsStill) :
    Act.Ends advance m link journal fun _ m' _ => m' = m := by
  have none : m.waitingWalks = [] := by
    apply List.eq_nil_iff_forall_not_mem.mpr
    intro tid mem
    obtain ⟨walk, found⟩ := Table.mem_keys_iff.mp mem
    cases (still tid).symm.trans (Table.get?_filter_some found).1
  simp [advance, none, askEach]

theorem IsStill.ends_onResponse (still : m.IsStill) (mail : Mail) :
    Act.Ends (onResponse mail.1 mail.2) m link journal fun _ m' _ => m' = m.delivered mail := by
  simp only [onResponse, onRequests, onWatch, Watch.onRequests, Act.ends_bind, Act.ends_on,
    Act.ends_ofTask]
  refine Correlator.ends_receive_answer?.mono ?_
  rintro _ _ _ ⟨rfl, rfl⟩
  cases brings : m.answer? mail with
  | none =>
    rw [delivered_none brings]
    simp only [Correlator.afterMail, brings]
    rfl
  | some completion =>
    have opened : (m.withRequests (m.closed completion.key)).IsStill := still
    rw [delivered_some brings]
    simp only [Correlator.afterMail, brings, Act.ends_bind, Act.ends_ofTask]
    refine ends_complete.mono ?_
    rintro _ _ _ rfl
    exact opened.settled.ends_advance

end Monitor

variable {m : Monitor μ} {mails mails' : List Mail}

/-- Responses of which no two answer the same request may come in any order. -/
theorem Monitor.IsStill.foldl_delivered_perm (perm : mails.Perm mails') (still : m.IsStill)
    (marked : Scene.Marked ⟨m, []⟩)
    (once : ∀ key p, m.pending.get? key = some p → mails.countP (p.isAnsweredBy key) ≤ 1) :
    mails.foldl Monitor.delivered m = mails'.foldl Monitor.delivered m := by
  induction perm generalizing m with
  | nil => rfl
  | cons mail perm ih =>
    rw [List.foldl_cons, List.foldl_cons]
    apply ih (still.delivered mail) (Monitor.marked_delivered marked mail)
    intro key p pending
    have counted := once key p (Monitor.pending_of_delivered pending)
    rw [List.countP_cons] at counted
    omega
  | swap mail mail' rest =>
    simp only [List.foldl_cons]
    rw [still.delivered_comm marked]
    intro completion completion' brings brings' same
    obtain ⟨p, pending, _, answers⟩ := Correlator.answer?_some brings
    obtain ⟨p', pending', _, answers'⟩ := Correlator.answer?_some brings'
    rw [same, pending] at pending'
    cases pending'
    rw [same] at answers'
    have counted := once completion.key p pending
    rw [List.countP_cons_of_pos answers, List.countP_cons_of_pos answers'] at counted
    omega
  | trans perm _ ih ih' =>
    rw [ih still marked once]
    apply ih' still marked
    intro key p pending
    rw [← perm.countP_eq]
    exact once key p pending

variable [UpdateManager μ]

/-- Without a walk, a message that is no request does no more than end the request that it
answers. -/
theorem Turn.run_deliveries (still : m.IsStill)
    (responses : ∀ mail ∈ mails, ∀ header, Header.ofBytes mail.2 = .ok header →
      header.request = false) :
    Turn.run (Turn.deliveries link mails) m = mails.foldl Monitor.delivered m := by
  induction mails generalizing m with
  | nil => rfl
  | cons mail rest ih =>
    obtain ⟨response, responses⟩ := List.forall_mem_cons.mp responses
    have first : Turn.after { operation := .message mail.1 mail.2, link } m = m.delivered mail := by
      have ends : Act.Ends (Monitor.onMessage mail.1 mail.2) m link [] fun _ m' _ =>
          m' = m.delivered mail := by
        unfold Monitor.onMessage
        split
        next header read =>
          rw [response header read, if_neg Bool.false_ne_true]
          exact still.ends_onResponse mail
        next =>
          simp only [Act.ends_bind, Act.ends_lift, Effect.ends_remark]
          exact still.ends_onResponse mail
      exact Act.ends_iff.mp ends
    rw [List.foldl_cons, ← ih (still.delivered mail) responses, ← first]
    rfl

/-- In every state that a run leads to, without a walk under way, responses of which at most one
answers each pending request leave the same monitor in every order: the same requests are
pending, the same instance IDs in use, the same readings outstanding, and each sensor has the
same value, flags and alarms. -/
theorem responses_commute (ids : Pools) (policy : RetryPolicy) (interval now : Nat)
    (turns : List (Turn μ)) (link link' : Link) (perm : mails.Perm mails') :
    let m := Turn.run turns (Monitor.startWith ids policy interval now)
    (∀ tid, m.isDiscovering tid = false) →
      (∀ mail ∈ mails, ∀ header, Header.ofBytes mail.2 = .ok header → header.request = false) →
      (∀ key p, m.pending.get? key = some p → mails.countP (p.isAnsweredBy key) ≤ 1) →
      Turn.run (Turn.deliveries link mails) m = Turn.run (Turn.deliveries link' mails') m := by
  intro m idle responses once
  have still : m.IsStill := fun tid => Table.contains_eq_false_iff.mp (idle tid)
  have marked : Scene.Marked ⟨m, []⟩ :=
    Turn.run_preserves (Monitor.keyed_startWith ..) turns _ Scene.Marked.move (.startWith ..)
  have responses' : ∀ mail ∈ mails', ∀ header, Header.ofBytes mail.2 = .ok header →
      header.request = false := fun mail mem => responses mail (perm.mem_iff.mpr mem)
  rw [Turn.run_deliveries still responses, Turn.run_deliveries still responses']
  exact still.foldl_delivered_perm perm marked once

/-- Two sensors are found and asked for readings. -/
def twoReadingsAwaited : List (Turn Scripted) :=
  [{ operation := .add 1 8 "Rack" },
    { operation := .discover 1 },
    { operation := .message 8 (FetchRecord.answering 0 1 (.temperature 1)) },
    { operation := .message 8 (FetchRecord.answering 0 0 (.temperature 2)) },
    { operation := .startPolling },
    { operation := .update 0 }]

/-- Both readings, and a message that answers nothing. -/
def bothReadings : List Mail :=
  [(8, ReadSensor.answering 0 .enabled (.u8 20)), (9, ReadSensor.answering 0 .enabled (.u8 30)),
    (8, ReadSensor.answering 1 .unavailable (.u8 0))]

theorem responses_commute_reversed :
    let start : Monitor Scripted := .startWith {} {} 250 0
    let m := Turn.run twoReadingsAwaited start
    m.pending.keys = [⟨8, 0⟩, ⟨8, 1⟩] ∧
      (∀ tid, m.isDiscovering tid = false) ∧
      (∀ mail ∈ bothReadings, ∀ header, Header.ofBytes mail.2 = .ok header →
        header.request = false) ∧
      (∀ key p, m.pending.get? key = some p →
        bothReadings.countP (p.isAnsweredBy key) ≤ 1) ∧
      Turn.run (Turn.deliveries .reliable bothReadings) m =
        Turn.run (Turn.deliveries .reliable bothReadings.reverse) m := by
  have idle : ∀ tid, (Turn.run twoReadingsAwaited (.startWith {} {} 250 0)).isDiscovering tid =
      false := by
    have none : (Turn.run twoReadingsAwaited (.startWith {} {} 250 0)).walks.isEmpty = true := by
      decide +kernel
    intro tid
    apply Table.contains_eq_false_iff.mpr
    apply Option.eq_none_iff_forall_ne_some.mpr
    intro walk found
    rw [← Table.mem_entries_iff, List.isEmpty_iff.mp none] at found
    cases found
  have responses : ∀ mail ∈ bothReadings, ∀ header, Header.ofBytes mail.2 = .ok header →
      header.request = false := by
    intro mail mem header read
    have all : bothReadings.all fun mail =>
        (Header.ofBytes mail.2).toOption.all fun header => !header.request := by
      decide +kernel
    simpa [read, Except.toOption] using List.all_eq_true.mp all mail mem
  have once : ∀ key p,
      (Turn.run twoReadingsAwaited (.startWith {} {} 250 0)).pending.get? key = some p →
        bothReadings.countP (p.isAnsweredBy key) ≤ 1 := by
    have all : ∀ e ∈ (Turn.run twoReadingsAwaited (.startWith {} {} 250 0)).pending.entries,
        bothReadings.countP (e.2.isAnsweredBy e.1) ≤ 1 := by
      decide +kernel
    intro key p pending
    exact all (key, p) (Table.mem_entries_iff.mpr pending)
  have law := responses_commute {} {} 250 0 twoReadingsAwaited .reliable .reliable
    (List.reverse_perm bothReadings).symm
  exact ⟨by decide +kernel, idle, responses, once, law idle responses once⟩

end TerminusMonitor
