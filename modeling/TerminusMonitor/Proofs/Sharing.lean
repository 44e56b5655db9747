import TerminusMonitor.Proofs.Safety
import TerminusMonitor.Simulation.Scripted

/-!
A monitor that shares its pools.

Somebody else takes instance IDs from the pools of a monitor, keeps them for a while and
frees none but those. The pools drop all IDs of an endpoint at once when its terminus
leaves and the monitor itself has no request there.

* `Kept.step`: the IDs in use stay those of the pending requests and those held, unless a
  step drops the pool of a held one;
* `shared_ids_kept_iff`: the two get along in a run exactly when no step does so;
* `held_id_handed_out`: one that does, so that a held ID goes to a request, whose own
  release is lost and which another request then runs into.
-/

namespace TerminusMonitor

variable {μ : Type}

/-- A monitor with the instance IDs that somebody else has taken and not freed. -/
structure Sharing (μ : Type) where
  monitor : Monitor μ
  held : KeySet RequestKey := ∅

namespace Sharing

/-- A monitor of no termini and pools of which no ID is in use. -/
def start (policy : RetryPolicy) (interval now : Nat) : Sharing μ :=
  { monitor := .start policy interval now }

/-- Works on the shared pools. -/
def onIds {α : Type} (act : Act Pools α) : Act (Sharing μ) α :=
  act.on (·.monitor.ids) fun ids s => { s with monitor := { s.monitor with ids } }

/-- Takes an ID for the other one. -/
def borrow (loan : Loan) : Act (Sharing μ) Unit := do
  if let some iid ← onIds loan.act then
    modify fun s => { s with held := s.held.insert ⟨loan.eid, iid⟩ () }

/-- Frees an ID for the other one, if it holds it. -/
def giveBack (key : RequestKey) : Act (Sharing μ) Unit := do
  if (← get).held.contains key then
    onIds (Pools.free key.eid key.iid)
    modify fun s => { s with held := s.held.erase key }

/-- An operation of the monitor, or of the other one. -/
inductive Step (μ : Type) where
  | own (operation : Operation μ) (own : operation.IsOwn)
  | borrow (loan : Loan)
  | giveBack (key : RequestKey)

/-- Carries out a step. -/
def Step.act [UpdateManager μ] : Step μ → Act (Sharing μ) Unit
  | own operation _ => operation.act.on (·.monitor) fun monitor s => { s with monitor }
  | borrow loan => Sharing.borrow loan
  | giveBack key => Sharing.giveBack key

/-- The two after steps, each over a link of its own. -/
def run [UpdateManager μ] (steps : List (Link × Step μ)) (s : Sharing μ) : Sharing μ :=
  steps.foldl (fun s step => step.2.act.state s step.1 []) s

/-- Whether a step drops the pool of an endpoint of which the other one holds an ID. -/
def Strips (s : Sharing μ) : Step μ → Prop
  | .own operation _ =>
    ∃ eid iid, operation.dropped s.monitor = some eid ∧ s.held.contains ⟨eid, iid⟩ = true
  | _ => False

/-! ### Laws -/

variable {s s' : Sharing μ} {link : Link} {journal : Journal}

/-- The two get along: an ID that is held is in use, is that of no request and can be
freed, and nothing that the monitor does is at fault with the state of the requests but
an update whose time goes back. -/
structure Peaceful [UpdateManager μ] (s : Sharing μ) : Prop where
  marked : ∀ key, s.held.contains key = true → s.monitor.ids.holds key.eid key.iid = true
  apart : ∀ key, s.held.contains key = true → s.monitor.pending.contains key = false
  returned : ∀ key link, s.held.contains key = true →
    (giveBack key).result s link [] = .ok ()
  sound : ∀ operation own link state,
    (Step.own operation own).act.result s link [] = .error (.state state) →
      state = .timeReversed ∧ ∃ now, operation = .update now ∧ now < s.monitor.clock

/-- The IDs in use are those of the pending requests and those that are held. -/
def Kept (s : Sharing μ) : Prop :=
  s.monitor.Accounts fun key => s.held.contains key = true

namespace Kept

theorem ends_borrow {loan : Loan} (kept : s.Kept) :
    Act.Ends (borrow loan) s link [] fun _ s' _ => s'.Kept := by
  have clean : Journal.Clean [] := fun _ _ => List.not_mem_nil
  simp only [borrow, onIds, Act.ends_bind, Act.ends_on]
  refine (loan.ends_act clean).mono ?_
  rintro result ids _ ⟨ending, _⟩
  cases ending with
  | waits masks => exact Pools.Split.congr kept masks
  | refused masks => exact Pools.Split.congr kept masks
  | lent free masks =>
    simp only [Act.ends_modify]
    exact (((Pools.Split.swap kept).taken free Table.contains_insert).congr masks).swap

theorem ends_giveBack {key : RequestKey} (kept : s.Kept) :
    Act.Ends (giveBack key) s link journal fun result s' _ => result = .ok () ∧ s'.Kept := by
  simp only [giveBack, onIds, Act.ends_bind, Act.ends_get]
  split
  next holds =>
    have held : s.monitor.ids.holds key.eid key.iid = true := kept.used.mpr (.inr holds)
    simp only [Act.ends_bind, Act.ends_on, Pools.ends_free, held, if_true, Act.ends_modify]
    exact ⟨trivial, ((Pools.Split.swap kept).released holds Table.contains_erase).swap⟩
  next => exact ⟨rfl, kept⟩

variable [UpdateManager μ]

theorem peaceful (kept : s.Kept) : s.Peaceful where
  marked _ holds := kept.used.mpr (.inr holds)
  apart _ holds := Bool.eq_false_iff.mpr (kept.apart holds)
  returned _ _ _ := (Act.ends_iff.mp kept.ends_giveBack).1
  sound _ own _ state := (Act.ends_iff.mp (Operation.ends_own own kept)).2 state

theorem step {step : Step μ} (kept : s.Kept) (spares : ¬ s.Strips step) :
    Act.Ends step.act s link [] fun _ s' _ => s'.Kept := by
  cases step with
  | own operation own =>
    simp only [Step.act, Act.ends_on]
    refine (Operation.ends_own own kept).mono ?_
    rintro _ m' _ ⟨kept, _⟩
    exact kept fun eid drops iid holds => spares ⟨eid, iid, drops, holds⟩
  | borrow loan => exact kept.ends_borrow
  | giveBack key => exact kept.ends_giveBack.mono fun _ _ _ ended => ended.2

theorem run {steps : List (Link × Step μ)} (kept : s.Kept)
    (spares : ∀ before step rest, steps = before ++ step :: rest →
      ¬ (Sharing.run before s).Strips step.2) :
    (Sharing.run steps s).Kept := by
  induction steps generalizing s with
  | nil => exact kept
  | cons step rest ih =>
    refine ih (Act.ends_iff.mp (kept.step (spares [] step rest rfl))) ?_
    rintro before step' rest' rfl
    exact spares (step :: before) step' rest' rfl

omit [UpdateManager μ] in
/-- At the start no ID is in use. -/
theorem start (policy : RetryPolicy) (interval now : Nat) :
    (Sharing.start policy interval now : Sharing μ).Kept :=
  .fresh rfl rfl fun _ => Bool.noConfusion

end Kept

/-- An ID that is held when its pool is dropped is not in use any more. -/
theorem Peaceful.spares [UpdateManager μ] {step : Step μ}
    (peaceful : (step.act.state s link []).Peaceful) : ¬ s.Strips step := by
  cases step with
  | own operation own =>
    rintro ⟨eid, iid, drops, holds⟩
    have requests : ((Step.own operation own).act.state s link []).monitor.toCorrelator =
        s.monitor.without (some eid) :=
      Act.ends_iff.mp (Operation.ends_dropped drops)
    have marked := peaceful.marked ⟨eid, iid⟩ holds
    rw [requests] at marked
    change (s.monitor.ids.dropped eid).holds eid iid = true at marked
    have dropped := @Pools.holds_dropped s.monitor.ids ⟨eid, iid⟩ eid
    simp only [decide_true, Bool.not_true, Bool.false_and] at dropped
    cases dropped.symm.trans marked
  | borrow loan => exact id
  | giveBack key => exact id

/-- However the operations of the two interleave, they get along at every moment exactly
when the monitor never drops the pool of an endpoint of which the other one holds an
ID. -/
theorem shared_ids_kept_iff [UpdateManager μ] (policy : RetryPolicy) (interval now : Nat)
    (steps : List (Link × Step μ)) :
    (∀ before, before <+: steps → (run before (start policy interval now)).Peaceful) ↔
      ∀ before step rest, steps = before ++ step :: rest →
        ¬ (run before (start policy interval now)).Strips step.2 := by
  constructor
  · rintro peaceful before step rest rfl
    have after := peaceful (before ++ [step]) ⟨rest, by simp⟩
    rw [run, List.foldl_append] at after
    exact Peaceful.spares after
  · rintro spares before ⟨later, rfl⟩
    refine (Kept.run (Kept.start policy interval now) ?_).peaceful
    rintro earlier step rest rfl
    exact spares earlier step (rest ++ later) (by simp)

/-- The state that an operation blames for its failure. -/
def blame {α : Type} : Except Fault α → Option StateFault
  | .error (.state state) => some state
  | _ => none

/-- Another one takes an ID of an endpoint from which a terminus then is removed. -/
def removedMeanwhile : List (Link × Step Scripted) :=
  [(.reliable, .borrow (.next 8)),
    (.reliable, .own (.add 1 8 "Rack") trivial),
    (.reliable, .own (.remove 1) trivial)]

/-- The terminus comes back and is asked for its first record. -/
def askedAgain : List (Link × Step Scripted) :=
  [(.reliable, .own (.add 1 8 "Rack") trivial),
    (.reliable, .own (.discover 1) trivial)]

/-- The ID is given back, and another terminus comes to the endpoint. -/
def givenBack : List (Link × Step Scripted) :=
  [(.reliable, .giveBack ⟨8, 0⟩),
    (.reliable, .own (.add 2 8 "Shelf") trivial)]

/-- The ID is held and not in use, so that it cannot be given back. Then it is that of a
request for a record, and giving it back frees it under that request: the next request
to the endpoint fails. -/
theorem held_id_handed_out :
    let removed := run removedMeanwhile (start {} 250 0)
    let asked := run askedAgain removed
    let given := run givenBack asked
    removed.held.contains ⟨8, 0⟩ = true ∧ removed.monitor.ids.holds 8 0 = false ∧
      blame ((giveBack ⟨8, 0⟩).result removed .reliable []) = some .unusedId ∧
      asked.held.contains ⟨8, 0⟩ = true ∧ asked.monitor.pending.contains ⟨8, 0⟩ = true ∧
      given.held.contains ⟨8, 0⟩ = false ∧ given.monitor.ids.holds 8 0 = false ∧
      blame ((Operation.discover 2).act.result given.monitor .reliable []) =
        some .duplicatePending := by
  decide +kernel

end Sharing

end TerminusMonitor
