import TerminusMonitor.Proofs.Deadlines
import TerminusMonitor.Proofs.Enrolment
import TerminusMonitor.Service
import TerminusMonitor.Simulation.World

/-!
What can end a run.

Each round of a run is an update and, if a message has come, another update and the message.
None of them fails when the monitor alone uses its pools, time does not go back, and the
update managers answer with responses that can be written. A sum of times that wraps round is
no failure either: it makes a request overdue (`update_acts_at_once`) or a sensor due
(`Poller.isDue_iff_of_asked`) before its time.

* `Inventory.ends_dispatch`: update managers whose responses fit their headers go on to do
  so, and each answer can be written;
* `Monitor.Sane.ends_onMessage`, `Monitor.Sane.ends_update`: messages and time leave such a
  monitor as it should be, and do not fail;
* `monitor_never_fails`: so every run goes on until receiving fails.
-/

namespace TerminusMonitor

variable {μ ε : Type} {link : Link} {journal : Journal}

/-! ### Messages that can be written -/

theorem Header.fits_iff {header : Header} :
    header.fits = true ↔ header.instanceId ≤ maxInstanceId ∧ header.type ≤ maxMessageType := by
  simp [fits]

/-- What can be read as a request fits its header. -/
theorem Request.fits_of_ofBytes {bytes : List UInt8} {request : Request}
    (read : Request.ofBytes bytes = .ok request) : request.header.fits = true := by
  unfold Request.ofBytes at read
  cases parsed : Header.ofBytes bytes with
  | error fault => rw [parsed] at read; cases read
  | ok header =>
    have bounds : header.instanceId ≤ maxInstanceId ∧ header.type ≤ maxMessageType := by
      unfold Header.ofBytes at parsed
      split at parsed
      next first second third _ =>
        split at parsed
        next =>
          cases parsed
          constructor <;>
            rw [UInt8.le_iff_toNat_le, UInt8.toNat_and] <;> exact Nat.and_le_right
        next => cases parsed
      next => cases parsed
    rw [parsed] at read
    cases isRequest : header.request with
    | false => simp [isRequest, bind, Except.bind] at read
    | true =>
      simp only [bind, Except.bind, isRequest, Bool.not_true, Bool.false_eq_true, if_false] at read
      cases read
      exact Header.fits_iff.mpr bounds

/-- A response that fits its header can be written. -/
theorem Response.written {response : Response} (fits : response.header.fits = true) :
    ∃ bytes, response.toBytes = .ok bytes := by
  simp only [toBytes, Header.toBytes, fits, if_true]
  exact ⟨_, rfl⟩

/-! ### Update managers -/

section Managers

variable [UpdateManager μ] {eid : Eid} {request : Request}

namespace UpdateManager

/-- An update manager after requests from endpoints were offered to it. -/
def offered (manager : μ) (offers : List (Eid × Request)) : μ :=
  offers.foldl (fun manager offer => (UpdateManager.offer manager offer.1 offer.2).2) manager

/-- Whether each response of an update manager fits its header, whatever requests it is
offered: its instance ID is below 32 and its type below 64. -/
def Writes (manager : μ) : Prop :=
  ∀ offers : List (Eid × Request), (∀ offer ∈ offers, offer.2.header.fits = true) →
    ∀ eid request, request.header.fits = true →
      (UpdateManager.offer (offered manager offers) eid request).1.response.header.fits = true

theorem Writes.offer {manager : μ} (writes : Writes manager) (eid : Eid)
    (fits : request.header.fits = true) :
    (UpdateManager.offer manager eid request).1.response.header.fits = true ∧
      Writes (UpdateManager.offer manager eid request).2 := by
  constructor
  · exact writes [] (List.forall_mem_nil _) eid request fits
  · intro offers fitsAll
    exact writes ((eid, request) :: offers) (List.forall_mem_cons.mpr ⟨fits, fitsAll⟩)

end UpdateManager

namespace Inventory

/-- Whether the responses of all update managers fit their headers. -/
structure Writes (i : Inventory μ) : Prop where
  managers : ∀ entry ∈ i.managers, UpdateManager.Writes entry.2
  primary : ∀ manager, i.primary? = some manager → UpdateManager.Writes manager

/-- An update manager that has changed still answers with responses that fit. -/
theorem Writes.changed {i : Inventory μ} {component : Component} {manager : μ} (writes : i.Writes)
    (fine : UpdateManager.Writes manager) : (i.withChanged component manager).Writes where
  managers := by
    rw [managers_withChanged]
    intro entry mem
    obtain ⟨entry, listed, rfl⟩ := List.mem_map.mp mem
    split
    · exact fine
    · exact writes.managers entry listed
  primary := writes.primary

variable {i : Inventory μ}

theorem ends_offerEach (fits : request.header.fits = true) {last? : Option Response}
    {managers : List (Component × μ)} (last : ∀ r, last? = some r → r.header.fits = true)
    (writes : i.Writes) (all : ∀ entry ∈ managers, UpdateManager.Writes entry.2) :
    Task.Ends (offerEach eid request last? managers) i link journal fun answer? i' _ =>
      i'.Writes ∧ ∀ response, answer? = some response → response.header.fits = true := by
  induction managers generalizing i last? journal with
  | nil => exact ⟨writes, last⟩
  | cons entry rest ih =>
    obtain ⟨component, manager⟩ := entry
    obtain ⟨writesFirst, writesRest⟩ := List.forall_mem_cons.mp all
    obtain ⟨answers, stays⟩ := writesFirst.offer eid fits
    rw [offerEach]
    simp only [Task.ends_bind, Task.ends_lift, Effect.ends_record, Task.ends_modify]
    have changed : (i.withChanged component (UpdateManager.offer manager eid request).2).Writes :=
      writes.changed stays
    rcases offered : UpdateManager.offer manager eid request with ⟨_ | _, next⟩
    all_goals
      rw [offered] at answers changed
      dsimp only [Handled.response] at answers changed
    · refine ⟨changed, ?_⟩
      rintro _ ⟨⟩
      exact answers
    · exact ih (by rintro _ ⟨⟩; exact answers) changed writesRest

theorem ends_offerComponents (fits : request.header.fits = true) {last? : Option Response}
    (last : ∀ r, last? = some r → r.header.fits = true) (writes : i.Writes) :
    Task.Ends (offerComponents eid request last?) i link journal fun response i' _ =>
      response.header.fits = true ∧ i'.Writes := by
  simp only [offerComponents, Task.ends_bind, Task.ends_get]
  have all : ∀ entry ∈ i.managersOf (·.eid == eid), UpdateManager.Writes entry.2 := by
    rw [managersOf_eq]
    exact fun entry mem => writes.managers entry (List.mem_filter.mp mem).1
  refine (ends_offerEach fits last writes all).mono ?_
  rintro answer? _ _ ⟨after, answer⟩
  cases answer? with
  | some response => exact ⟨answer response rfl, after⟩
  | none => exact ⟨fits, after⟩

/-- Each request that fits its header gets a response that does. -/
theorem ends_dispatch (fits : request.header.fits = true) (writes : i.Writes) :
    Task.Ends (dispatch eid request) i link journal fun response i' _ =>
      response.header.fits = true ∧ i'.Writes := by
  simp only [dispatch, Task.ends_bind, Task.ends_get]
  cases primary : i.primary? with
  | none => exact ends_offerComponents fits (by rintro _ ⟨⟩) writes
  | some manager =>
    simp only [Task.ends_bind, Task.ends_lift, Effect.ends_record, Task.ends_modify]
    obtain ⟨answers, stays⟩ := (writes.primary manager primary).offer eid fits
    rcases offered : UpdateManager.offer manager eid request with ⟨_ | _, next⟩
    all_goals
      rw [offered] at answers stays
      dsimp only [Handled.response] at answers stays
      have after : Writes { i with primary? := some next } :=
        ⟨writes.managers, by rintro _ ⟨⟩; exact stays⟩
    · exact ⟨answers, after⟩
    · exact ends_offerComponents fits (by rintro _ ⟨⟩; exact answers) after

end Inventory

end Managers

/-! ### The monitor -/

namespace Monitor

variable {m : Monitor μ} {eid : Eid} {bytes : List UInt8}

theorem settle_inventory {completions : List (Completion Purpose)} :
    (completions.foldl settled m).inventory = m.inventory := by
  induction completions generalizing m with
  | nil => rfl
  | cons completion rest ih => exact ih.trans settled_inventory

theorem inventory_onResponse :
    Act.Ends (onResponse eid bytes) m link journal fun _ m' _ => m'.inventory = m.inventory := by
  rw [onResponse, Act.ends_bind, ends_onRequests]
  refine Task.ends_of_forall ?_
  intro result c journal₁
  cases result with
  | error => rfl
  | ok completion? =>
    cases completion? with
    | none => rfl
    | some completion =>
      simp only [Act.ends_bind, Act.ends_ofTask]
      refine ends_complete.mono ?_
      rintro _ m₁ _ rfl
      refine frame_advance.mono ?_
      rintro _ m₂ _ ⟨_, _, inventory⟩
      exact inventory.trans settled_inventory

theorem inventory_update {now : Nat} :
    Act.Ends (update now) m link journal fun _ m' _ => m'.inventory = m.inventory := by
  rw [update, Act.ends_bind, ends_onRequests]
  refine Task.ends_of_forall ?_
  intro result c journal₁
  cases result with
  | error => rfl
  | ok completions =>
    simp only [Act.ends_bind, Act.ends_ofTask]
    refine ends_completeAll.mono ?_
    rintro _ m₁ _ rfl
    refine frame_advance.mono ?_
    rintro result m₂ _ ⟨_, _, inventory⟩
    have same : m₂.inventory = m.inventory := inventory.trans settle_inventory
    cases result with
    | error => exact same
    | ok =>
      simp only [onWatch, Act.ends_on]
      refine Task.ends_of_forall ?_
      intro result w _
      cases result <;> exact same

variable [UpdateManager μ]

/-- A monitor that alone uses its pools, with update managers whose responses fit their
headers. -/
structure Sane (m : Monitor μ) : Prop where
  accounts : m.Accounts fun _ => False
  writes : m.inventory.Writes

namespace Sane

theorem ends_onRequest (sane : m.Sane) :
    Act.Ends (onRequest eid bytes) m link journal fun result m' _ =>
      result = .ok () ∧ m'.Sane ∧ m'.clock = m.clock := by
  unfold onRequest
  split
  next => exact ⟨rfl, sane, rfl⟩
  next request read =>
    simp only [Act.ends_bind, onInventory, Act.ends_on, Act.ends_ofTask]
    refine (Inventory.ends_dispatch (Request.fits_of_ofBytes read) sane.writes).mono ?_
    rintro response inventory _ ⟨fits, writes⟩
    obtain ⟨bytes, written⟩ := Response.written fits
    have answered : Sane { m with inventory } := ⟨sane.accounts, writes⟩
    simp only [written, Act.ofMessage, Act.ends_pure, Act.ends_lift, Effect.ends_send]
    split <;> exact ⟨rfl, answered, rfl⟩

theorem ends_onResponse (sane : m.Sane) :
    Act.Ends (onResponse eid bytes) m link journal fun result m' _ =>
      result = .ok () ∧ m'.Sane ∧ m'.clock = m.clock := by
  have keeps : (onResponse eid bytes : Act (Monitor μ) Unit).Keeps
      (fun m' => m'.Accounts (fun _ => False) ∧ m'.clock = m.clock) fun _ => False :=
    keeps_onResponse (Correlator.Accounts.serves (· = m.clock))
  refine ((keeps m link journal ⟨sane.accounts, rfl⟩).and inventory_onResponse).mono ?_
  rintro result m' _ ⟨⟨⟨accounts, clock⟩, fine⟩, inventory⟩
  refine ⟨?_, ⟨accounts, inventory ▸ sane.writes⟩, clock⟩
  cases result with
  | ok => rfl
  | error fault => exact (fine fault rfl).elim

/-- No message ends the run, -/
theorem ends_onMessage (sane : m.Sane) :
    Act.Ends (onMessage eid bytes) m link journal fun result m' _ =>
      result = .ok () ∧ m'.Sane ∧ m'.clock = m.clock :=
  ends_onMessage_of (fun _ => sane.ends_onRequest) fun _ => sane.ends_onResponse

/-- nor does time that goes on. -/
theorem ends_update (sane : m.Sane) {now : Nat} (forward : m.clock ≤ now) :
    Act.Ends (update now) m link journal fun result m' _ =>
      (∃ delay, result = .ok delay) ∧ m'.Sane ∧ m'.clock = now := by
  refine ((ends_update_forward sane.accounts forward).and inventory_update).mono ?_
  rintro result m' _ ⟨⟨fine, accounts, clock⟩, inventory⟩
  exact ⟨fine, ⟨accounts, inventory ▸ sane.writes⟩, clock⟩

theorem ends_discover (sane : m.Sane) {tid : Tid} (known : m.termini.contains tid = true) :
    Act.Ends (discover tid) m link journal fun result _ _ => result = .ok () := by
  simp only [discover, Act.ends_bind, Act.ends_get, known, Bool.not_true, Bool.false_eq_true,
    if_false]
  split
  next => rfl
  next =>
    simp only [Act.ends_bind, Act.ends_lift, Effect.ends_log, Act.ends_modify]
    have keeps : (advance : Act (Monitor μ) Unit).Keeps (·.Accounts fun _ => False)
        fun _ => False := keeps_advance Correlator.Accounts.sound.admits
    refine (keeps { m with walks := m.walks.insert tid {} } link _ sane.accounts).mono ?_
    rintro result _ _ ⟨_, fine⟩
    cases result with
    | ok => rfl
    | error fault => exact (fine fault rfl).elim

end Sane

end Monitor

/-! ### Runs -/

namespace Source

variable [Source ε]

/-- Whether time does not go back while a message is waited for. -/
def Forward (ε : Type) [Source ε] : Prop :=
  ∀ (source : ε) journal delay, clock source ≤ clock (wait source journal delay).2

/-- A source fails to receive, now or at a later time. -/
inductive Fails : ε → TransportFault → Prop where
  | now {source : ε} {journal : Journal} {delay : Nat} {fault : TransportFault}
      (fails : (wait source journal delay).1 = .failure fault) : Fails source fault
  | later {source : ε} {journal : Journal} {delay : Nat} {fault : TransportFault}
      (fails : Fails (wait source journal delay).2 fault) : Fails source fault

end Source

namespace Service

theorem ends_onRun {α : Type} {act : Act (Monitor μ) α} {r : Service μ × ε}
    {post : Except Fault α → Service μ × ε → Journal → Prop} :
    Act.Ends (onRun act) r link journal post ↔
      Act.Ends act r.1.toMonitor link journal fun result m journal =>
        post result ({ r.1 with toMonitor := m }, r.2) journal := by
  simp only [onRun, onMonitor, Act.ends_on]

variable [UpdateManager μ] [Source ε]

/-- A service whose monitor is as it should be, and not ahead of its source. -/
structure Steady (r : Service μ × ε) : Prop where
  sane : r.1.toMonitor.Sane
  clock : r.1.clock ≤ Source.clock r.2

namespace Steady

variable {r : Service μ × ε}

theorem ends_update (steady : Steady r) :
    Act.Ends update r link journal fun result r' _ =>
      (∃ delay, result = .ok delay) ∧ Steady r' ∧ r'.2 = r.2 := by
  simp only [update, Act.ends_bind, Act.ends_get]
  rw [ends_onRun]
  refine (steady.sane.ends_update steady.clock).mono ?_
  rintro result m _ ⟨fine, sane, clock⟩
  exact ⟨fine, ⟨sane, Nat.le_of_eq clock⟩, rfl⟩

/-- A round fails only when receiving does. -/
theorem ends_turn (steady : Steady r) (forward : Source.Forward ε) :
    Act.Ends turn r link journal fun result r' _ =>
      match result with
      | .ok _ => Steady r' ∧ ∀ cause, Source.Fails r'.2 cause → Source.Fails r.2 cause
      | .error fault => ∃ cause, fault = .transport cause ∧ Source.Fails r.2 cause := by
  rw [turn, Act.ends_bind]
  refine steady.ends_update.mono ?_
  rintro _ r₁ journal₁ ⟨⟨delay, rfl⟩, steady₁, source⟩
  simp only [Act.ends_bind, Act.ends_get]
  split
  next =>
    simp only [Act.ends_bind, Act.ends_lift, Effect.ends_log, Act.ends_pure]
    exact ⟨steady₁, fun _ fails => source ▸ fails⟩
  next =>
    simp only [Act.ends_bind, Act.ends_get, Act.ends_lift, Effect.ends_journal, Act.ends_modify]
    have later := forward r₁.2 journal₁ (min delay maxWait)
    rcases arrives : Source.wait r₁.2 journal₁ (min delay maxWait) with ⟨arrival, source'⟩
    rw [arrives] at later
    have waits (cause : TransportFault) (fails : Source.Fails source' cause) :
        Source.Fails r.2 cause := by
      rw [← source]
      apply Source.Fails.later
      rwa [arrives]
    have steady₂ : Steady (r₁.1, source') := ⟨steady₁.sane, Nat.le_trans steady₁.clock later⟩
    cases arrival with
    | message eid bytes =>
      simp only [Act.ends_bind, Act.ends_discard]
      refine steady₂.ends_update.mono ?_
      rintro _ r₃ _ ⟨⟨_, rfl⟩, steady₃, source₃⟩
      simp only [Except.map, ends_onRun]
      refine steady₃.sane.ends_onMessage.mono ?_
      rintro _ m _ ⟨rfl, sane, clock⟩
      refine ⟨⟨sane, Nat.le_trans (Nat.le_of_eq clock) steady₃.clock⟩, ?_⟩
      intro cause fails
      dsimp only at source₃ fails
      exact waits cause (source₃ ▸ fails)
    | failure fault =>
      simp only [Act.ends_bind, Act.ends_lift, Effect.ends_log, Act.ends_throw]
      refine ⟨fault, rfl, ?_⟩
      rw [← source]
      exact .now (congrArg Prod.fst arrives)
    | quiet => exact ⟨steady₂, waits⟩

/-- So does a run. -/
theorem ends_run (steady : Steady r) (forward : Source.Forward ε) (rounds : Nat) :
    Act.Ends (run rounds) r link journal fun result _ _ =>
      ∀ fault, result = .error fault →
        ∃ cause, fault = .transport cause ∧ Source.Fails r.2 cause := by
  induction rounds generalizing r journal with
  | zero => exact fun _ => nofun
  | succ rounds ih =>
    rw [run, Act.ends_bind]
    refine (steady.ends_turn forward).mono ?_
    intro result r₁ journal₁ turns
    cases result with
    | error fault =>
      rintro _ ⟨⟩
      exact turns
    | ok again =>
      obtain ⟨steady₁, waits⟩ := turns
      dsimp only
      split
      next =>
        refine (ih steady₁).mono ?_
        intro _ _ _ failing fault eq
        obtain ⟨cause, transport, fails⟩ := failing fault eq
        exact ⟨cause, transport, waits cause fails⟩
      next => exact fun _ => nofun

end Steady

end Service

/-- A scripted manager answers with the instance ID of the request, or with its own one. -/
theorem Scripted.writes {m : Scripted}
    (own : ∀ iid, m.instanceId? = some iid → iid ≤ maxInstanceId) : UpdateManager.Writes m := by
  intro offers _ eid request fits
  have same : UpdateManager.offered m offers = m := List.foldl_fixed' (fun _ => rfl) offers
  have answer : (UpdateManager.offer m eid request).1.response = m.answer request := by
    simp only [UpdateManager.offer]
    split <;> rfl
  obtain ⟨iid, type⟩ := Header.fits_iff.mp fits
  rw [same, answer, Header.fits_iff]
  refine ⟨?_, type⟩
  simp only [Response.header, Scripted.answer]
  cases named : m.instanceId? with
  | none => exact iid
  | some iid => exact own iid named

/-- The time of a listener goes on while it waits in vain. -/
theorem Listener.forward : Source.Forward Listener := by
  intro listener journal delay
  simp only [Source.wait, Source.clock]
  split
  next => exact Nat.le_refl _
  next =>
    split
    next => exact Nat.le_add_right _ _
    next => exact Nat.le_refl _

/-- A terminus with update managers, whose discovery the transport lets fail. -/
def attended : List (Turn Scripted) :=
  [{ operation := .add 1 8 "Rack" },
    { operation := .manage fun i =>
        ((i.withRecord ⟨8, 1⟩ { name := "BIOS", version := "1.0", descriptors := [] }).withManager
          ⟨8, 1⟩ { tag := 1, claims := true, completion := 0, instanceId? := some 3 }).setPrimary
          { tag := 2, claims := false, completion := 0, instanceId? := none } },
    { operation := .discover 1, link := fun _ _ => some (.named "TxFailure") }]

end TerminusMonitor
