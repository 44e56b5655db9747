import TerminusMonitor.Monitor.Update
import TerminusMonitor.Proofs.Pools

/-!
What the parts of an operation add to the journal.

`Adds ok` says of a computation that all events it adds to the journal are `ok`. The rules
follow the constructs of a program; each part says which kinds of events it adds.

* `Correlator.adds_receive`: taking in a message sends nothing;
* `Monitor.adds_completeAll`: outcomes concern objects and the log alone;
* `Correlator.adds_register`, `Correlator.adds_update`, `Inventory.adds_dispatch`: requests, time
  and update managers concern no objects.
-/

namespace TerminusMonitor

variable {σ τ α β : Type} {ok : Event → Prop}

/-- A journal has grown by such events alone. -/
def Journal.Grows (journal : Journal) (ok : Event → Prop) (journal' : Journal) : Prop :=
  ∃ events, journal' = journal ++ events ∧ ∀ event ∈ events, ok event

namespace Journal.Grows

variable {journal journal' journal'' : Journal}

theorem refl (journal : Journal) : journal.Grows ok journal :=
  ⟨[], (List.append_nil journal).symm, List.forall_mem_nil _⟩

theorem trans (first : journal.Grows ok journal') (later : journal'.Grows ok journal'') :
    journal.Grows ok journal'' := by
  obtain ⟨events, rfl, fine⟩ := first
  obtain ⟨more, rfl, fineMore⟩ := later
  exact ⟨events ++ more, List.append_assoc .., List.forall_mem_append.mpr ⟨fine, fineMore⟩⟩

theorem single {event : Event} (fine : ok event) : journal.Grows ok (journal ++ [event]) :=
  ⟨[event], rfl, List.forall_mem_singleton.mpr fine⟩

end Journal.Grows

/-! ### Rules -/

/-- An effect adds such events alone. -/
def Effect.Adds (ok : Event → Prop) (effect : Effect α) : Prop :=
  ∀ link journal, effect.Ends link journal fun _ journal' => journal.Grows ok journal'

/-- A task adds such events alone. -/
def Task.Adds (ok : Event → Prop) (task : Task σ α) : Prop :=
  ∀ s link journal, task.Ends s link journal fun _ _ journal' => journal.Grows ok journal'

/-- An operation adds such events alone. -/
def Act.Adds (ok : Event → Prop) (act : Act σ α) : Prop :=
  ∀ s link journal, act.Ends s link journal fun _ _ journal' => journal.Grows ok journal'

namespace Effect

theorem adds_pure (a : α) : (pure a : Effect α).Adds ok := fun _ journal => .refl journal

theorem adds_record {event : Event} (fine : ok event) : (record event).Adds ok :=
  fun _ _ => .single fine

theorem Adds.bind {effect : Effect α} {next : α → Effect β} (first : effect.Adds ok)
    (rest : ∀ a, (next a).Adds ok) : (effect >>= next).Adds ok := by
  intro link journal
  rw [ends_bind]
  refine (first link journal).mono ?_
  intro a journal' grows
  exact (rest a link journal').mono fun _ _ later => grows.trans later

variable (logs : ∀ notice, ok (.logged notice))
include logs

theorem adds_log (notice : Notice) : (log notice).Adds ok := adds_record (logs notice)

theorem adds_remark (fault : MessageFault) : (remark fault).Adds ok := by
  unfold remark
  cases fault.remark? with
  | none => exact adds_pure ()
  | some => exact adds_log logs _

theorem adds_logAll (notices : List Notice) : (logAll notices).Adds ok := by
  induction notices with
  | nil => exact adds_pure ()
  | cons notice rest ih => exact (adds_log logs notice).bind fun _ => ih

end Effect

namespace Task

theorem adds_pure (a : α) : (pure a : Task σ α).Adds ok := fun _ _ journal => .refl journal

theorem adds_get : (get : Task σ σ).Adds ok := fun _ _ journal => .refl journal

theorem adds_modify (f : σ → σ) : (modify f : Task σ PUnit).Adds ok :=
  fun _ _ journal => .refl journal

namespace Adds

theorem lift {effect : Effect α} (adds : effect.Adds ok) : (liftM effect : Task σ α).Adds ok :=
  fun _ => adds

theorem bind {task : Task σ α} {next : α → Task σ β} (first : task.Adds ok)
    (rest : ∀ a, (next a).Adds ok) : (task >>= next).Adds ok := by
  intro s link journal
  rw [ends_bind]
  refine (first s link journal).mono ?_
  intro a s' journal' grows
  exact (rest a s' link journal').mono fun _ _ _ later => grows.trans later

theorem on {task : Task τ α} (adds : task.Adds ok) (part : σ → τ) (put : τ → σ → σ) :
    (Task.on part put task).Adds ok := fun s => adds (part s)

theorem discard {task : Task σ α} (adds : task.Adds ok) :
    (Functor.discard task : Task σ Unit).Adds ok := adds

end Adds

end Task

namespace Act

theorem adds_pure (a : α) : (pure a : Act σ α).Adds ok := fun _ _ journal => .refl journal

theorem adds_throw (fault : Fault) : (throw fault : Act σ α).Adds ok :=
  fun _ _ journal => .refl journal

theorem adds_get : (get : Act σ σ).Adds ok := fun _ _ journal => .refl journal

theorem adds_modify (f : σ → σ) : (modify f : Act σ PUnit).Adds ok :=
  fun _ _ journal => .refl journal

namespace Adds

theorem run {act : Act σ α} (adds : act.Adds ok) : act.run.Adds ok := adds

theorem lift {effect : Effect α} (adds : effect.Adds ok) : (liftM effect : Act σ α).Adds ok :=
  fun _ => adds

theorem ofTask {task : Task σ α} (adds : task.Adds ok) : (Act.ofTask task).Adds ok := by
  intro s link journal
  rw [ends_ofTask]
  exact adds s link journal

theorem bind {act : Act σ α} {next : α → Act σ β} (first : act.Adds ok)
    (rest : ∀ a, (next a).Adds ok) : (act >>= next).Adds ok := by
  intro s link journal
  rw [ends_bind]
  refine (first s link journal).mono ?_
  intro result s' journal' grows
  cases result with
  | ok a => exact (rest a s' link journal').mono fun _ _ _ later => grows.trans later
  | error => exact grows

theorem on {act : Act τ α} (adds : act.Adds ok) (part : σ → τ) (put : τ → σ → σ) :
    (Act.on part put act).Adds ok := fun s => adds (part s)

end Adds

end Act

/-! ### Pools and requests -/

section Kinds

variable (logs : ∀ notice, ok (.logged notice)) (wakes : ∀ task, ok (.woken task))

include wakes in
theorem Pools.adds_wake : wake.Adds ok := by
  intro p link journal
  rw [ends_wake]
  exact ⟨_, rfl, List.forall_mem_map.mpr fun task _ => wakes task⟩

include logs in
theorem Pools.adds_take (eid : Eid) : (take eid).Adds ok := by
  intro p link journal
  rw [ends_take]
  cases (p.mask eid).lowestFree? with
  | none => exact .single (logs _)
  | some => exact .refl journal

include logs in
theorem Correlator.adds_understand (parse : Response → Except MessageFault α)
    (result : Except Fault Response) : (understand parse result).Adds ok := by
  unfold understand
  cases result with
  | error => exact Effect.adds_pure _
  | ok response =>
    dsimp only
    split
    next => exact Effect.adds_pure _
    next => exact (Effect.adds_remark logs _).bind fun _ => Effect.adds_pure _

include logs wakes

theorem Pools.adds_free (eid : Eid) (iid : InstanceId) : (free eid iid).Adds ok := by
  intro p link journal
  rw [ends_free]
  split
  next => exact ⟨_, rfl, List.forall_mem_map.mpr fun task _ => wakes task⟩
  next => exact .single (logs _)

theorem Pools.adds_drop (eid : Eid) : (drop eid).Adds ok := by
  unfold drop
  refine .bind Task.adds_get fun _ => ?_
  split
  next =>
    refine .bind Task.adds_get fun _ => .bind (Task.adds_modify _) fun _ => ?_
    dsimp only
    split
    next => exact .bind (.lift (Effect.adds_log logs _)) fun _ => adds_wake wakes
    next => exact adds_wake wakes
  next => exact Task.adds_pure _

namespace Correlator

variable {κ : Type}

theorem adds_finish (key : RequestKey) : (finish key : Task (Correlator κ) Unit).Adds ok :=
  .bind (Task.adds_modify _) fun _ =>
    ((Pools.adds_free logs wakes key.eid key.iid).on _ _).run.discard

/-- Taking in a message sends nothing. -/
theorem adds_receive (eid : Eid) (message : List UInt8) :
    (receive eid message : Task (Correlator κ) _).Adds ok := by
  have log {α : Type} (notice : Notice) (a : α) :
      (do Effect.log notice; return a : Task (Correlator κ) α).Adds ok :=
    .bind (.lift (Effect.adds_log logs notice)) fun _ => Task.adds_pure a
  unfold receive
  cases Header.ofBytes message with
  | error fault => exact .bind (.lift (Effect.adds_remark logs fault)) fun _ => log _ _
  | ok header =>
    dsimp only
    split
    next => exact log _ _
    next =>
      cases InstanceId.ofByte? header.instanceId with
      | none => exact Task.adds_pure _
      | some iid =>
        refine .bind Task.adds_get fun c => ?_
        split
        next => exact log _ _
        next =>
          split
          next => exact log _ _
          next =>
            refine .bind (adds_finish logs wakes _) fun _ => ?_
            split
            next => exact log _ _
            next => exact Task.adds_pure _

variable (sends : ∀ eid message fault?, ok (.sent eid message fault?))
include sends

theorem adds_register (eid : Eid) (request : Request) (cookie : κ) :
    (register eid request cookie).Adds ok := by
  have give {α : Type} (iid : InstanceId) (notice : Notice) (fault : Fault) :
      (do Effect.log notice; onIds (Pools.free eid iid); throw fault :
        Act (Correlator κ) α).Adds ok :=
    .bind (.lift (Effect.adds_log logs notice)) fun _ =>
      .bind ((Pools.adds_free logs wakes eid iid).on _ _) fun _ => Act.adds_throw fault
  unfold register
  refine .bind ((Pools.adds_take logs eid).on _ _) fun iid => .bind Act.adds_get fun c => ?_
  dsimp only
  split
  next => exact give iid _ _
  next =>
    refine .bind (.lift ?_) fun transmitted => ?_
    · unfold transmit
      split
      next => exact Effect.adds_pure _
      next message _ =>
        refine .bind (fun _ _ => .single (sends ..)) fun sent => ?_
        cases sent <;> exact Effect.adds_pure _
    · cases transmitted with
      | error fault => exact give iid _ fault
      | ok => exact .bind (Act.adds_modify _) fun _ => Act.adds_pure _

theorem adds_expire (key : RequestKey) : (expire key : Task (Correlator κ) _).Adds ok := by
  unfold expire
  refine .bind Task.adds_get fun c => ?_
  split
  next p _ =>
    split
    next =>
      refine .bind (.lift (Effect.adds_log logs _)) fun _ => ?_
      exact .bind (adds_finish logs wakes key) fun _ => Task.adds_pure _
    next left _ =>
      refine .bind (Task.adds_modify _) fun _ => .bind (.lift (Effect.adds_log logs _)) fun _ => ?_
      refine .bind (.lift fun _ _ => .single (sends ..)) fun sent => ?_
      cases sent with
      | error => exact .bind (.lift (Effect.adds_log logs _)) fun _ => Task.adds_pure _
      | ok => exact Task.adds_pure _
  next => exact Task.adds_pure _

theorem adds_expireAll (keys : List RequestKey) :
    (expireAll keys : Task (Correlator κ) _).Adds ok := by
  induction keys with
  | nil => exact Task.adds_pure _
  | cons key rest ih =>
    exact .bind (adds_expire logs wakes sends key) fun _ => .bind ih fun _ => Task.adds_pure _

theorem adds_update (now : Nat) : (update now : Act (Correlator κ) _).Adds ok := by
  unfold update
  refine .bind Act.adds_get fun c => ?_
  dsimp only
  split
  next => exact .bind (.lift (Effect.adds_log logs _)) fun _ => Act.adds_throw _
  next =>
    refine .bind (Act.adds_modify _) fun _ => .bind Act.adds_get fun _ => ?_
    exact .ofTask (adds_expireAll logs wakes sends _)

end Correlator

end Kinds

/-! ### Outcomes -/

section Outcomes

variable {μ κ : Type} (logs : ∀ notice, ok (.logged notice))
  (publishes : ∀ path properties, ok (.published path properties))

include publishes in
theorem NumericSensor.adds_publishAll (sensors : List NumericSensor) :
    (publishAll sensors).Adds ok := by
  induction sensors with
  | nil => exact Effect.adds_pure _
  | cons s rest ih => exact (Effect.adds_record (publishes ..)).bind fun _ => ih

include logs publishes in
/-- Readings concern objects and the log alone. -/
theorem Watch.adds_complete (key : SensorKey) (result : Except Fault Response) :
    (complete key result : Task (Watch κ) Unit).Adds ok := by
  unfold complete
  refine .bind (Task.adds_modify _) fun _ => .bind Task.adds_get fun w => ?_
  cases w.sensor? key with
  | none => exact .lift (Effect.adds_log logs _)
  | some s =>
    have put (next : NumericSensor) :
        (do modify (·.setSensor key next); next.publish : Task (Watch κ) Unit).Adds ok :=
      .bind (Task.adds_modify _) fun _ => .lift (Effect.adds_record (publishes ..))
    refine .bind (.lift (Correlator.adds_understand logs _ _)) fun answer => ?_
    cases answer with
    | ok answer =>
      refine .bind (.lift ?_) put
      exact (Effect.adds_logAll logs _).bind fun _ => Effect.adds_pure _
    | error fault =>
      exact .bind (.lift (Effect.adds_log logs _)) fun _ => .bind (Task.adds_pure _) put

namespace Monitor

variable (removes : ∀ path, ok (.removed path))
include logs publishes removes

theorem adds_finishWalk (tid : Tid) : (finishWalk tid : Task (Monitor μ) Unit).Adds ok := by
  have removeAll (paths : List String) : (Effect.removeAll paths).Adds ok := by
    induction paths with
    | nil => exact Effect.adds_pure _
    | cons path rest ih => exact (Effect.adds_record (removes path)).bind fun _ => ih
  unfold finishWalk
  refine .bind Task.adds_get fun m => ?_
  cases m.walks.get? tid with
  | none => exact Task.adds_pure _
  | some walk =>
    refine .bind (Task.adds_modify _) fun _ => .bind Task.adds_get fun m => ?_
    cases m.termini.get? tid with
    | none => exact Task.adds_pure _
    | some terminus =>
      refine .bind (.lift (removeAll _)) fun _ => .bind (Task.adds_modify _) fun _ => ?_
      refine .bind (.lift (NumericSensor.adds_publishAll publishes _)) fun _ => ?_
      exact .lift (Effect.adds_log logs _)

private theorem adds_follow (tid : Tid) (walk : Walk) (next : UInt32) :
    Task.Adds ok (do
      if next = 0 then finishWalk tid
      else if walk.seen.contains next then
        Effect.log (.repositoryLoops tid next)
        finishWalk tid
      else
        modify fun m => { m with walks := m.walks.modify tid (·.follow next) } :
      Task (Monitor μ) Unit) := by
  have finish := adds_finishWalk (μ := μ) logs publishes removes tid
  split
  next => exact finish
  next =>
    split
    next => exact .bind (.lift (Effect.adds_log logs _)) fun _ => finish
    next => exact Task.adds_modify _

theorem adds_recordComplete (tid : Tid) (handle : UInt32) (result : Except Fault Response) :
    (recordComplete tid handle result : Task (Monitor μ) Unit).Adds ok := by
  have follow := adds_follow (μ := μ) logs publishes removes tid
  unfold recordComplete
  refine .bind Task.adds_get fun m => ?_
  split
  next => exact .bind (.lift (Effect.adds_log logs _)) fun _ => Task.adds_pure _
  next =>
    refine .bind (.lift (Correlator.adds_understand logs _ _)) fun answer => ?_
    cases answer with
    | error fault =>
      refine .bind (.lift (Effect.adds_log logs _)) fun _ => ?_
      exact adds_finishWalk logs publishes removes tid
    | ok answer =>
      dsimp only
      cases answer.1.sensor? with
      | none =>
        refine .bind Task.adds_get fun m => ?_
        cases m.walks.get? tid with
        | none => exact Task.adds_pure _
        | some walk => exact follow walk answer.2
      | some r =>
        refine .bind (Task.adds_modify _) fun _ => .bind Task.adds_get fun m => ?_
        cases m.walks.get? tid with
        | none => exact Task.adds_pure _
        | some walk => exact follow walk answer.2

theorem adds_complete (completion : Completion Purpose) :
    (complete completion : Task (Monitor μ) Unit).Adds ok := by
  unfold complete
  cases completion.cookie with
  | reading key => exact (Watch.adds_complete logs publishes _ _).on _ _
  | record tid handle => exact adds_recordComplete logs publishes removes tid handle _
  | effecter path property =>
    refine .lift ((Correlator.adds_understand logs _ _).bind fun answer => ?_)
    cases answer <;> exact Effect.adds_log logs _

theorem adds_completeAll (completions : List (Completion Purpose)) :
    (completeAll completions : Task (Monitor μ) Unit).Adds ok := by
  induction completions with
  | nil => exact Task.adds_pure _
  | cons completion rest ih =>
    exact .bind (adds_complete logs publishes removes completion) fun _ => ih

end Monitor

end Outcomes

/-! ### The inventory -/

namespace Inventory

variable {μ : Type} (logs : ∀ notice, ok (.logged notice))
include logs

theorem adds_eraseIf (which : Component → Bool) :
    (eraseIf which : Task (Inventory μ) Nat).Adds ok := by
  unfold eraseIf
  refine .bind Task.adds_get fun i => ?_
  have count : (do
      let before := (← get).entries.length
      modify (·.without which)
      return before - (← get).entries.length : Task (Inventory μ) Nat).Adds ok :=
    .bind Task.adds_get fun _ => .bind (Task.adds_modify _) fun _ =>
      .bind Task.adds_get fun _ => Task.adds_pure _
  split
  next =>
    refine .bind (.lift (Effect.adds_log logs _)) fun _ => ?_
    exact .bind (Task.adds_modify _) fun _ => count
  next => exact count

variable [UpdateManager μ] (offers : ∀ component?, ok (.offered component?))
include offers

omit logs in
theorem adds_offerEach (eid : Eid) (request : Request) (last? : Option Response)
    (managers : List (Component × μ)) : (offerEach eid request last? managers).Adds ok := by
  induction managers generalizing last? with
  | nil => exact Task.adds_pure _
  | cons entry rest ih =>
    unfold offerEach
    refine .bind (.lift (Effect.adds_record (offers _))) fun _ => ?_
    refine .bind (Task.adds_modify _) fun _ => ?_
    split
    next => exact Task.adds_pure _
    next => exact ih _

/-- A request that is handed to the update managers concerns no objects. -/
theorem adds_dispatch (eid : Eid) (request : Request) :
    (dispatch eid request : Task (Inventory μ) Response).Adds ok := by
  have components (last? : Option Response) :
      (offerComponents eid request last? : Task (Inventory μ) Response).Adds ok := by
    unfold offerComponents
    refine .bind Task.adds_get fun i => ?_
    refine .bind (adds_offerEach offers eid request last? _) fun answered => ?_
    split
    next => exact Task.adds_pure _
    next => exact .bind (.lift (Effect.adds_log logs _)) fun _ => Task.adds_pure _
  unfold dispatch
  refine .bind Task.adds_get fun i => ?_
  split
  next => exact components none
  next =>
    refine .bind (.lift (Effect.adds_record (offers _))) fun _ => ?_
    refine .bind (Task.adds_modify _) fun _ => ?_
    split
    next => exact Task.adds_pure _
    next => exact components _

end Inventory

end TerminusMonitor
