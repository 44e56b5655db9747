import Mathlib.Data.List.Chain
import TerminusMonitor.Proofs.Outcome

/-!
Operations step by step.

What holds after an operation need not hold on the way. A `Plan` is an operation as single
steps, each of which may depend on what came of those before; `Plan.act` is the operation, and
`Plan.moments` are the states that its run goes through with the journal at each.

* `Plan.getLast?_moments`: the last moment is the outcome of the operation;
* `Plan.Goes.isChain`: what each step of a plan does holds between each moment and the next.
-/

namespace TerminusMonitor

variable {σ τ α β : Type}

/-- A state with the journal so far. -/
structure Moment (σ : Type) where
  state : σ
  journal : Journal := []

/-- The moment after an operation. -/
def Moment.after (x : Moment σ) (act : Act σ α) (link : Link) : Moment σ :=
  ⟨act.state x.state link x.journal, act.journal x.state link x.journal⟩

/-- An operation as single steps. -/
inductive Plan (σ α : Type) : Type 1 where
  | done (a : α)
  | step {β : Type} (act : Act σ β) (next : β → Plan σ α)

namespace Plan

/-- One plan after the other. -/
protected def bind : Plan σ α → (α → Plan σ β) → Plan σ β
  | done a, f => f a
  | step act next, f => step act fun b => (next b).bind f

instance : Monad (Plan σ) where
  pure := done
  bind := Plan.bind

/-- A single step. -/
def one (act : Act σ α) : Plan σ α := step act done

/-- A step for each element of a list, one after the other. -/
def each (f : α → Act σ Unit) : List α → Plan σ Unit
  | [] => return
  | a :: rest => do
    one (f a)
    each f rest

/-- The operation that a plan is made for. -/
def act : Plan σ α → Act σ α
  | done a => return a
  | step act next => do
    let b ← act
    (next b).act

/-- The moments after each step of a plan. A failure ends it. -/
def moments (link : Link) : Plan σ α → Moment σ → List (Moment σ)
  | done _, _ => []
  | step act next, x =>
    x.after act link ::
      match act.result x.state link x.journal with
      | .ok b => (next b).moments link (x.after act link)
      | .error _ => []

/-! ### The operation of a plan -/

@[simp] theorem act_pure (a : α) : (pure a : Plan σ α).act = pure a := rfl

@[simp] theorem act_one (act : Act σ α) : (one act).act = act := bind_pure act

@[simp] theorem act_bind (plan : Plan σ α) (f : α → Plan σ β) :
    (plan >>= f).act = plan.act >>= fun a => (f a).act := by
  induction plan with
  | done a => exact (pure_bind a fun a => (f a).act).symm
  | step act next ih =>
    change (act >>= fun b => ((next b).bind f).act) = (act >>= fun b => (next b).act) >>= _
    rw [bind_assoc]
    exact bind_congr ih

/-- The last moment of a plan is the outcome of its operation. -/
theorem getLast?_moments (plan : Plan σ α) (link : Link) (x : Moment σ) :
    (x :: plan.moments link x).getLast? = some (x.after plan.act link) := by
  induction plan generalizing x with
  | done a => rfl
  | step act next ih =>
    have ends : Act.Ends (act >>= fun b => (next b).act) x.state link x.journal
        fun _ s journal => (x.after act link ::
          match act.result x.state link x.journal with
          | .ok b => (next b).moments link (x.after act link)
          | .error _ => []).getLast? = some ⟨s, journal⟩ := by
      rw [Act.ends_bind, Act.ends_iff]
      cases act.result x.state link x.journal with
      | error fault => rfl
      | ok b => exact ih b (x.after act link)
    rw [moments, List.getLast?_cons_cons]
    exact ends

/-! ### What each step does -/

variable {rel : Moment σ → Moment σ → Prop} {link : Link} {x : Moment σ}

/-- Each step of a plan leads from a moment to a related one, and the run ends with what `post`
holds of unless it fails. -/
def Goes (rel : Moment σ → Moment σ → Prop) (link : Link) :
    Plan σ α → Moment σ → (α → Moment σ → Prop) → Prop
  | done a, x, post => post a x
  | step act next, x, post =>
    Act.Ends act x.state link x.journal fun result s journal =>
      rel x ⟨s, journal⟩ ∧ ∀ b, result = .ok b → (next b).Goes rel link ⟨s, journal⟩ post

namespace Goes

variable {post post' : α → Moment σ → Prop}

theorem one {act : Act σ α}
    (ends : Act.Ends act x.state link x.journal fun result s journal =>
      rel x ⟨s, journal⟩ ∧ ∀ a, result = .ok a → post a ⟨s, journal⟩) :
    (one act).Goes rel link x post := ends

theorem bind {plan : Plan σ α} {f : α → Plan σ β} {post : β → Moment σ → Prop}
    (first : plan.Goes rel link x fun a y => (f a).Goes rel link y post) :
    (plan >>= f).Goes rel link x post := by
  induction plan generalizing x with
  | done a => exact first
  | step act next ih =>
    obtain ⟨goes, later⟩ := first
    exact ⟨goes, fun b result => ih b (later b result)⟩

theorem mono {plan : Plan σ α} (goes : plan.Goes rel link x post)
    (imp : ∀ a y, post a y → post' a y) : plan.Goes rel link x post' := by
  induction plan generalizing x with
  | done a => exact imp a x goes
  | step act next ih =>
    obtain ⟨goes, later⟩ := goes
    exact ⟨goes, fun b result => ih b (later b result)⟩

/-- Steps in turn, over what holds of a state while a list of them is left. -/
theorem each {f : α → Act σ Unit} (inv : List α → σ → Prop)
    (step : ∀ a rest (y : Moment σ), inv (a :: rest) y.state →
      Act.Ends (f a) y.state link y.journal fun _ s journal => rel y ⟨s, journal⟩ ∧ inv rest s)
    {list : List α} (start : inv list x.state) :
    (each f list).Goes rel link x fun _ y => inv [] y.state := by
  induction list generalizing x with
  | nil => exact start
  | cons a rest ih =>
    obtain ⟨goes, left⟩ := step a rest x start
    exact bind (one ⟨goes, fun _ _ => ih left⟩)

/-- Each moment of a plan is related to the next one. -/
theorem isChain {plan : Plan σ α} (goes : plan.Goes rel link x post) :
    (x :: plan.moments link x).IsChain rel := by
  induction plan generalizing x with
  | done a => exact .singleton x
  | step act next ih =>
    obtain ⟨first, later⟩ := goes
    rw [moments]
    refine .cons_cons first ?_
    cases result : act.result x.state link x.journal with
    | error fault => exact .singleton _
    | ok b => exact ih b (later b result)

end Goes

end Plan

end TerminusMonitor
