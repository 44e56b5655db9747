import Mathlib.Logic.Function.Basic
import TerminusMonitor.Proofs.Ownership

/-!
Pools that several originators share.

A `Commons` has any number of correlators, and any number of others who take instance
IDs directly. Its steps interleave their operations; whoever takes an ID directly frees
none but those that it holds.

* `Divided.ends_act`: a step keeps the IDs in use divided among those who hold them;
* `ids_divided`: in every run each ID in use is that of one pending request of one
  correlator or is held by one other, so that no release fails.
-/

namespace TerminusMonitor

open Correlator

variable {ι η : Type} {κ : ι → Type}

/-- Correlators and direct holders of instance IDs that share pools. -/
structure Commons (ι η : Type) (κ : ι → Type) where
  ids : Pools := {}
  /-- The correlators, each with its own cookies. The pools that they work on are the
  shared ones. -/
  members : (i : ι) → Correlator (κ i)
  /-- The IDs that were taken directly and not freed. -/
  held : η → KeySet RequestKey := fun _ => ∅

namespace Commons

/-- Correlators without requests that share pools of which no ID is in use. -/
def start (policy : ι → RetryPolicy) (clock : ι → Nat) : Commons ι η κ :=
  { members := fun i => { policy := policy i, clock := clock i } }

/-- A correlator with the shared pools. -/
def member (s : Commons ι η κ) (i : ι) : Correlator (κ i) := { s.members i with ids := s.ids }

/-- Works on the shared pools. -/
def onIds {α : Type} (act : Act Pools α) : Act (Commons ι η κ) α :=
  act.on (·.ids) fun ids s => { s with ids }

/-- Those who may have an ID in use. -/
abbrev Owner (ι η : Type) := ι ⊕ η

/-- Whether an ID is that of a pending request of a correlator, or is held directly. -/
def Owns (s : Commons ι η κ) : Owner ι η → RequestKey → Prop
  | .inl i, key => (s.members i).pending.contains key = true
  | .inr h, key => (s.held h).contains key = true

/-- Each ID in use has one owner, and no other ID has one. -/
structure Divided (s : Commons ι η κ) : Prop where
  used : ∀ {key : RequestKey}, s.ids.holds key.eid key.iid = true ↔ ∃ owner, s.Owns owner key
  once : ∀ {key owner owner'}, s.Owns owner key → s.Owns owner' key → owner = owner'

/-- Works on a correlator with the shared pools. -/
def onMember [DecidableEq ι] {α : Type} (i : ι) (act : Act (Correlator (κ i)) α) :
    Act (Commons ι η κ) α :=
  act.on (·.member i) fun c s =>
    { s with ids := c.ids, members := Function.update s.members i c }

/-- Lets somebody take an ID directly. -/
def borrow [DecidableEq η] (h : η) (loan : Loan) : Act (Commons ι η κ) Unit := do
  if let some iid ← onIds loan.act then
    modify fun s =>
      { s with held := Function.update s.held h ((s.held h).insert ⟨loan.eid, iid⟩ ()) }

/-- Lets somebody free an ID, if it holds it. -/
def giveBack [DecidableEq η] (h : η) (key : RequestKey) : Act (Commons ι η κ) Unit := do
  if ((← get).held h).contains key then
    onIds (Pools.free key.eid key.iid)
    modify fun s => { s with held := Function.update s.held h ((s.held h).erase key) }

/-- An operation of a correlator, or of somebody who takes IDs directly. -/
inductive Step (ι η : Type) (κ : ι → Type) where
  | register (i : ι) (eid : Eid) (request : Request) (cookie : κ i)
  | receive (i : ι) (eid : Eid) (message : List UInt8)
  | update (i : ι) (now : Nat)
  | borrow (h : η) (loan : Loan)
  | giveBack (h : η) (key : RequestKey)

/-- Carries out a step. -/
def Step.act [DecidableEq ι] [DecidableEq η] : Step ι η κ → Act (Commons ι η κ) Unit
  | register i eid request cookie => discard (onMember i (Correlator.register eid request cookie))
  | receive i eid message => discard (onMember i (.ofTask (Correlator.receive eid message)))
  | update i now => discard (onMember i (Correlator.update now))
  | borrow h loan => Commons.borrow h loan
  | giveBack h key => Commons.giveBack h key

/-- The commons after steps, each over a link of its own. -/
def run [DecidableEq ι] [DecidableEq η] (steps : List (Link × Step ι η κ))
    (s : Commons ι η κ) : Commons ι η κ :=
  steps.foldl (fun s step => step.2.act.state s step.1 []) s

/-! ### Owners -/

variable {s s' : Commons ι η κ} {link : Link} {journal : Journal}

/-- What belongs to others than an owner. -/
def Others (s : Commons ι η κ) (owner : Owner ι η) (key : RequestKey) : Prop :=
  ∃ other, other ≠ owner ∧ s.Owns other key

namespace Divided

/-- The IDs in use are split between an owner and the others. -/
theorem split (divided : s.Divided) (owner : Owner ι η) :
    s.ids.Split (s.Owns owner) (s.Others owner) where
  used := by
    intro key
    rw [divided.used]
    constructor
    · rintro ⟨other, owns⟩
      by_cases same : other = owner
      · exact .inl (same ▸ owns)
      · exact .inr ⟨other, same, owns⟩
    · rintro (owns | ⟨other, _, owns⟩)
      · exact ⟨owner, owns⟩
      · exact ⟨other, owns⟩
  apart := by
    rintro key ⟨other, ne, owns⟩ owns'
    exact ne (divided.once owns owns')

/-- A change of what one owner has leaves the IDs divided if that owner and the others
still split them. -/
theorem change (divided : s.Divided) (owner : Owner ι η)
    (same : ∀ {other}, other ≠ owner → s'.Owns other = s.Owns other)
    (split : s'.ids.Split (s'.Owns owner) (s.Others owner)) : s'.Divided where
  used := by
    intro key
    rw [split.used]
    constructor
    · rintro (owns | ⟨other, ne, owns⟩)
      · exact ⟨owner, owns⟩
      · exact ⟨other, (same ne).symm ▸ owns⟩
    · rintro ⟨other, owns⟩
      by_cases eq : other = owner
      · exact .inl (eq ▸ owns)
      · exact .inr ⟨other, eq, same eq ▸ owns⟩
  once := by
    intro key other other' owns owns'
    by_cases eq : other = owner <;> by_cases eq' : other' = owner
    · exact eq.trans eq'.symm
    · subst eq
      exact absurd owns (split.apart ⟨other', eq', same eq' ▸ owns'⟩)
    · subst eq'
      exact absurd owns' (split.apart ⟨other, eq, same eq ▸ owns⟩)
    · rw [same eq] at owns
      rw [same eq'] at owns'
      exact divided.once owns owns'

/-- A correlator accounts for its pending requests. -/
theorem accounts (divided : s.Divided) (i : ι) :
    (s.member i).Accounts (s.Others (.inl i)) :=
  divided.split (.inl i)

theorem put [DecidableEq ι] (divided : s.Divided) {i : ι} {c : Correlator (κ i)}
    (accounts : c.Accounts (s.Others (.inl i))) :
    Divided { s with ids := c.ids, members := Function.update s.members i c } := by
  refine divided.change (.inl i) ?_ ?_
  · rintro (j | h) ne
    · funext key
      have other : j ≠ i := fun eq => ne (congrArg Sum.inl eq)
      simp only [Owns, Function.update_of_ne other]
    · rfl
  · constructor
    · intro key
      simpa only [Owns, Function.update_self] using accounts.used
    · intro key owned
      simpa only [Owns, Function.update_self] using accounts.apart owned

theorem hold [DecidableEq η] (divided : s.Divided) {h : η} {ids : Pools} {keys : KeySet RequestKey}
    (split : ids.Split (fun key => keys.contains key = true) (s.Others (.inr h))) :
    Divided { s with ids, held := Function.update s.held h keys } := by
  refine divided.change (.inr h) ?_ ?_
  · rintro (i | h') ne
    · rfl
    · funext key
      have other : h' ≠ h := fun eq => ne (congrArg Sum.inr eq)
      simp only [Owns, Function.update_of_ne other]
  · constructor
    · intro key
      simpa only [Owns, Function.update_self] using split.used
    · intro key owned
      simpa only [Owns, Function.update_self] using split.apart owned

end Divided

/-! ### Steps -/

namespace Divided

theorem ends_borrow [DecidableEq η] {h : η} {loan : Loan} (divided : s.Divided)
    (clean : journal.Clean) :
    Act.Ends (borrow h loan) s link journal fun result s' journal' =>
      s'.Divided ∧ (∀ fault, result ≠ .error (.state fault)) ∧ journal'.Clean := by
  have same {p : Pools} (masks : p.masks = s.ids.masks) : Divided { s with ids := p } :=
    ⟨(Bool.coe_iff_coe.mpr (Pools.holds_congr masks)).trans divided.used, divided.once⟩
  simp only [borrow, onIds, Act.ends_bind, Act.ends_on]
  refine (loan.ends_act clean).mono ?_
  rintro result ids journal' ⟨ending, clean⟩
  cases ending with
  | waits masks => exact ⟨same masks, fun _ => no_fault, clean⟩
  | refused masks => exact ⟨same masks, by simp, clean⟩
  | lent free masks =>
    simp only [Act.ends_modify]
    refine ⟨divided.hold ?_, fun _ => no_fault, clean⟩
    exact ((divided.split (.inr h)).taken free Table.contains_insert).congr masks

theorem ends_giveBack [DecidableEq η] {h : η} {key : RequestKey} (divided : s.Divided)
    (clean : journal.Clean) :
    Act.Ends (giveBack h key) s link journal fun result s' journal' =>
      s'.Divided ∧ (∀ fault, result ≠ .error (.state fault)) ∧ journal'.Clean := by
  simp only [giveBack, onIds, Act.ends_bind, Act.ends_get]
  split
  next owns =>
    have held := (divided.split (.inr h)).used.mpr (.inl owns)
    simp only [Act.ends_bind, Act.ends_on, Pools.ends_free, held, if_true, Act.ends_modify]
    refine ⟨divided.hold ?_, fun _ => no_fault, clean.woken _⟩
    exact (divided.split (.inr h)).released owns Table.contains_erase
  next => exact ⟨divided, fun _ => no_fault, clean⟩

variable [DecidableEq ι] [DecidableEq η]

/-- A step keeps the IDs in use divided, fails to free none, and is at fault with the
state of a correlator only when the time of the correlator goes back. -/
theorem ends_act (divided : s.Divided) (clean : journal.Clean) (step : Step ι η κ) :
    Act.Ends step.act s link journal fun result s' journal' =>
      s'.Divided ∧ journal'.Clean ∧
        ∀ fault, result = .error (.state fault) →
          ∃ i now, step = .update i now ∧ now < (s.members i).clock := by
  cases step with
  | register i eid request cookie =>
    simp only [Step.act, onMember, Act.ends_discard, Act.ends_on]
    refine (ends_register.and (clean_register clean)).mono ?_
    rintro result c journal' ⟨registration, clean⟩
    obtain ⟨accounts, fine⟩ := (divided.accounts i).registration registration
    refine ⟨divided.put accounts, clean, ?_⟩
    intro fault eq
    cases result with
    | ok => cases eq
    | error => cases eq; exact absurd rfl (fine fault)
  | receive i eid message =>
    simp only [Step.act, onMember, Act.ends_discard, Act.ends_on, Act.ends_ofTask]
    refine (ends_receive.and ((divided.accounts i).clean_receive clean)).mono ?_
    rintro _ c journal' ⟨reception, clean⟩
    exact ⟨divided.put ((divided.accounts i).reception reception), clean, fun _ => no_fault⟩
  | update i now =>
    simp only [Step.act, onMember, Act.ends_discard, Act.ends_on]
    refine (ends_update.and ((divided.accounts i).clean_update clean)).mono ?_
    rintro result c journal' ⟨lapse, clean⟩
    obtain ⟨accounts, late⟩ := (divided.accounts i).lapse lapse
    refine ⟨divided.put accounts, clean, ?_⟩
    intro fault eq
    cases result with
    | ok => cases eq
    | error => cases eq; exact ⟨i, now, rfl, (late _ rfl).2⟩
  | borrow h loan =>
    refine (divided.ends_borrow clean).mono ?_
    rintro _ _ _ ⟨divided, fine, clean⟩
    exact ⟨divided, clean, fun fault eq => absurd eq (fine fault)⟩
  | giveBack h key =>
    refine (divided.ends_giveBack clean).mono ?_
    rintro _ _ _ ⟨divided, fine, clean⟩
    exact ⟨divided, clean, fun fault eq => absurd eq (fine fault)⟩

theorem run {steps : List (Link × Step ι η κ)} (divided : s.Divided) :
    (Commons.run steps s).Divided := by
  induction steps generalizing s with
  | nil => exact divided
  | cons step rest ih =>
    have clean : Journal.Clean [] := fun _ _ => List.not_mem_nil
    exact ih (Act.ends_iff.mp (divided.ends_act clean step.2)).1

omit [DecidableEq ι] [DecidableEq η] in
/-- At the start no ID is in use. -/
theorem start (policy : ι → RetryPolicy) (clock : ι → Nat) :
    (Commons.start policy clock : Commons ι η κ).Divided := by
  have none (owner : Owner ι η) (key : RequestKey) :
      ¬ (Commons.start policy clock : Commons ι η κ).Owns owner key := by
    cases owner <;> exact Bool.false_ne_true
  constructor
  · intro key
    have free : (Commons.start policy clock : Commons ι η κ).ids.holds key.eid key.iid = false :=
      Pools.holds_empty
    rw [free]
    exact ⟨Bool.noConfusion, fun ⟨owner, owns⟩ => (none owner key owns).elim⟩
  · intro key owner _ owns
    exact (none owner key owns).elim

end Divided

/-- However the steps of correlators and direct holders interleave, the IDs in use of each
endpoint are those of the pending requests and those held directly, each of one owner.
No attempt to free an ID fails, and no operation is at fault with the state of the
requests but an update whose time goes back. -/
theorem ids_divided [DecidableEq ι] [DecidableEq η] (policy : ι → RetryPolicy) (clock : ι → Nat)
    (steps : List (Link × Step ι η κ)) :
    let s : Commons ι η κ := run steps (start policy clock)
    (∀ key : RequestKey, s.ids.holds key.eid key.iid = true ↔ ∃ owner, s.Owns owner key) ∧
      (∀ key owner owner', s.Owns owner key → s.Owns owner' key → owner = owner') ∧
      ∀ (step : Step ι η κ) (link : Link),
        step.act.Ends s link [] fun result _ journal =>
          journal.Clean ∧ ∀ fault, result = .error (.state fault) →
            ∃ i now, step = .update i now ∧ now < (s.members i).clock := by
  intro s
  have divided : s.Divided := (Divided.start policy clock).run
  refine ⟨fun _ => divided.used, fun _ _ _ => divided.once, ?_⟩
  intro step link
  have clean : Journal.Clean [] := fun _ _ => List.not_mem_nil
  exact (divided.ends_act clean step).mono fun _ _ _ ended => ended.2

end Commons

end TerminusMonitor
