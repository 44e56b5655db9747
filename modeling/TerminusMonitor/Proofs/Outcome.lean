import TerminusMonitor.Effect

/-!
What a run of an operation ends with.

`Ends x ... post` says that the run of `x` from a state, over a link and after a
journal, ends with a result, a state and a journal that `post` holds of. An
operation is deterministic, so the rules below are equivalences: they run a program
from its first statement on until a function comes whose outcome has a lemma of its
own, which `mono` then puts in.
-/

namespace TerminusMonitor

variable {σ τ α β : Type}

/-! ### Parts of an outcome -/

/-- The result of the run of a task. -/
def Task.result (task : Task σ α) (s : σ) (link : Link) (journal : Journal) : α :=
  (task s link journal).1.1

/-- The state after the run of a task. -/
def Task.state (task : Task σ α) (s : σ) (link : Link) (journal : Journal) : σ :=
  (task s link journal).1.2

/-- The result of the run of an operation. -/
def Act.result (act : Act σ α) (s : σ) (link : Link) (journal : Journal) : Except Fault α :=
  Task.result act.run s link journal

/-- The state after the run of an operation. -/
def Act.state (act : Act σ α) (s : σ) (link : Link) (journal : Journal) : σ :=
  Task.state act.run s link journal

/-- The journal after the run of an operation. -/
def Act.journal (act : Act σ α) (s : σ) (link : Link) (journal : Journal) : Journal :=
  (act.run s link journal).2

variable {link : Link} {journal : Journal} {s : σ}

/-- The run of an effect ends with what `post` holds of. -/
def Effect.Ends (effect : Effect α) (link : Link) (journal : Journal)
    (post : α → Journal → Prop) : Prop :=
  post (effect link journal).1 (effect link journal).2

/-- The run of a task ends with what `post` holds of. -/
def Task.Ends (task : Task σ α) (s : σ) (link : Link) (journal : Journal)
    (post : α → σ → Journal → Prop) : Prop :=
  Effect.Ends (task s) link journal fun r journal => post r.1 r.2 journal

/-- The run of an operation ends with what `post` holds of. -/
def Act.Ends (act : Act σ α) (s : σ) (link : Link) (journal : Journal)
    (post : Except Fault α → σ → Journal → Prop) : Prop :=
  Task.Ends act.run s link journal post

/-- A result that was given is no fault. -/
theorem no_fault {a : α} {fault : Fault} {p : Prop} (eq : Except.ok a = Except.error fault) :
    p := by
  cases eq

/-! ### Effects -/

namespace Effect

variable {post post' : α → Journal → Prop}

theorem Ends.mono {effect : Effect α} (ends : Ends effect link journal post)
    (imp : ∀ a journal, post a journal → post' a journal) : Ends effect link journal post' :=
  imp _ _ ends

@[simp] theorem ends_pure (a : α) : Ends (pure a) link journal post ↔ post a journal := Iff.rfl

@[simp] theorem ends_bind (x : Effect α) (f : α → Effect β) {post : β → Journal → Prop} :
    Ends (x >>= f) link journal post ↔
      Ends x link journal fun a journal => Ends (f a) link journal post := Iff.rfl

@[simp] theorem ends_map (f : α → β) (x : Effect α) {post : β → Journal → Prop} :
    Ends (f <$> x) link journal post ↔
      Ends x link journal fun a journal => post (f a) journal := Iff.rfl

@[simp] theorem ends_journal {post : Journal → Journal → Prop} :
    Ends Effect.journal link journal post ↔ post journal journal := Iff.rfl

@[simp] theorem ends_record (event : Event) {post : Unit → Journal → Prop} :
    Ends (record event) link journal post ↔ post () (journal ++ [event]) := Iff.rfl

@[simp] theorem ends_log (notice : Notice) {post : Unit → Journal → Prop} :
    Ends (log notice) link journal post ↔ post () (journal ++ [.logged notice]) := Iff.rfl

/-! What only adds to the journal has no result, and what it adds does not matter to
anything but the journal. -/

@[simp] theorem ends_remark (fault : MessageFault) {post : Unit → Journal → Prop} :
    Ends (remark fault) link journal post ↔ post () (remark fault link journal).2 := Iff.rfl

@[simp] theorem ends_logAll (notices : List Notice) {post : Unit → Journal → Prop} :
    Ends (logAll notices) link journal post ↔ post () (logAll notices link journal).2 := Iff.rfl

@[simp] theorem ends_publish (path : String) (properties : Properties)
    {post : Unit → Journal → Prop} :
    Ends (publish path properties) link journal post ↔
      post () (publish path properties link journal).2 := Iff.rfl

@[simp] theorem ends_removeAll (paths : List String) {post : Unit → Journal → Prop} :
    Ends (removeAll paths) link journal post ↔ post () (removeAll paths link journal).2 := Iff.rfl

theorem ends_send (eid : Eid) (message : List UInt8)
    {post : Except TransportFault Unit → Journal → Prop} :
    Ends (send eid message) link journal post ↔
      post (match link eid (journal.attempts eid) with
          | some fault => .error fault
          | none => .ok ())
        (journal ++ [.sent eid message (link eid (journal.attempts eid))]) := Iff.rfl

end Effect

/-! ### Tasks -/

namespace Task

variable {post post' : α → σ → Journal → Prop}

/-- What holds of every outcome holds of that of a run. -/
theorem ends_of_forall {task : Task σ α} (all : ∀ a s journal, post a s journal) :
    Ends task s link journal post := all _ _ _

theorem Ends.mono {task : Task σ α} (ends : Ends task s link journal post)
    (imp : ∀ a s journal, post a s journal → post' a s journal) :
    Ends task s link journal post' :=
  imp _ _ _ ends

/-- An outcome that two things hold of. -/
theorem Ends.and {task : Task σ α} (ends : Ends task s link journal post)
    (ends' : Ends task s link journal post') :
    Ends task s link journal fun a s journal => post a s journal ∧ post' a s journal :=
  ⟨ends, ends'⟩

@[simp] theorem ends_pure (a : α) : Ends (pure a) s link journal post ↔ post a s journal := Iff.rfl

@[simp] theorem ends_bind (x : Task σ α) (f : α → Task σ β) {post : β → σ → Journal → Prop} :
    Ends (x >>= f) s link journal post ↔
      Ends x s link journal fun a s journal => Ends (f a) s link journal post := Iff.rfl

@[simp] theorem ends_map (f : α → β) (x : Task σ α) {post : β → σ → Journal → Prop} :
    Ends (f <$> x) s link journal post ↔
      Ends x s link journal fun a s journal => post (f a) s journal := Iff.rfl

@[simp] theorem ends_discard (x : Task σ α) {post : PUnit → σ → Journal → Prop} :
    Ends (discard x) s link journal post ↔
      Ends x s link journal fun _ s journal => post ⟨⟩ s journal := Iff.rfl

@[simp] theorem ends_get {post : σ → σ → Journal → Prop} :
    Ends get s link journal post ↔ post s s journal := Iff.rfl

@[simp] theorem ends_modify (f : σ → σ) {post : PUnit → σ → Journal → Prop} :
    Ends (modify f) s link journal post ↔ post ⟨⟩ (f s) journal := Iff.rfl

@[simp] theorem ends_lift (x : Effect α) :
    Ends (liftM x : Task σ α) s link journal post ↔
      Effect.Ends x link journal fun a journal => post a s journal := Iff.rfl

@[simp] theorem ends_on (part : σ → τ) (put : τ → σ → σ) (task : Task τ α) :
    Ends (Task.on part put task) s link journal post ↔
      Ends task (part s) link journal fun a t journal => post a (put t s) journal := Iff.rfl

end Task

/-! ### Operations that may fail -/

namespace Act

variable {post post' : Except Fault α → σ → Journal → Prop}

theorem Ends.mono {act : Act σ α} (ends : Ends act s link journal post)
    (imp : ∀ r s journal, post r s journal → post' r s journal) :
    Ends act s link journal post' :=
  imp _ _ _ ends

/-- An outcome that two things hold of. -/
theorem Ends.and {act : Act σ α} (ends : Ends act s link journal post)
    (ends' : Ends act s link journal post') :
    Ends act s link journal fun r s journal => post r s journal ∧ post' r s journal :=
  ⟨ends, ends'⟩

/-- The parts of the outcome of a run are what `post` holds of. -/
theorem ends_iff {act : Act σ α} :
    Ends act s link journal post ↔
      post (act.result s link journal) (act.state s link journal) (act.journal s link journal) :=
  Iff.rfl

@[simp] theorem ends_run (act : Act σ α) :
    Task.Ends act.run s link journal post ↔ Ends act s link journal post := Iff.rfl

@[simp] theorem ends_pure (a : α) :
    Ends (pure a) s link journal post ↔ post (.ok a) s journal := Iff.rfl

@[simp] theorem ends_throw (fault : Fault) :
    Ends (throw fault : Act σ α) s link journal post ↔ post (.error fault) s journal := Iff.rfl

@[simp] theorem ends_bind (x : Act σ α) (f : α → Act σ β)
    {post : Except Fault β → σ → Journal → Prop} :
    Ends (x >>= f) s link journal post ↔
      Ends x s link journal fun r s journal =>
        match r with
        | .ok a => Ends (f a) s link journal post
        | .error fault => post (.error fault) s journal := by
  unfold Ends Task.Ends Effect.Ends
  rcases run : x.run s link journal with ⟨⟨r, s'⟩, journal'⟩
  have bound : (x >>= f).run s link journal =
      (match r with
        | .ok a => (f a).run
        | .error fault => pure (.error fault) : Task σ _) s' link journal' := by
    change (ExceptT.bindCont f ((x.run s link journal).1.1)) (x.run s link journal).1.2 link
      (x.run s link journal).2 = _
    rw [run]
    cases r <;> rfl
  rw [bound]
  cases r <;> rfl

@[simp] theorem ends_map (f : α → β) (x : Act σ α)
    {post : Except Fault β → σ → Journal → Prop} :
    Ends (f <$> x) s link journal post ↔
      Ends x s link journal fun r s journal => post (r.map f) s journal := by
  rw [← bind_pure_comp, ends_bind]
  constructor
  · intro ends
    refine ends.mono ?_
    intro r _ _ h
    cases r <;> exact h
  · intro ends
    refine ends.mono ?_
    intro r _ _ h
    cases r <;> exact h

@[simp] theorem ends_get {post : Except Fault σ → σ → Journal → Prop} :
    Ends get s link journal post ↔ post (.ok s) s journal := Iff.rfl

@[simp] theorem ends_modify (f : σ → σ) {post : Except Fault PUnit → σ → Journal → Prop} :
    Ends (modify f) s link journal post ↔ post (.ok ⟨⟩) (f s) journal := Iff.rfl

@[simp] theorem ends_lift (x : Effect α) :
    Ends (liftM x : Act σ α) s link journal post ↔
      Effect.Ends x link journal fun a journal => post (.ok a) s journal := Iff.rfl

@[simp] theorem ends_liftTask (task : Task σ α) :
    Ends (liftM task : Act σ α) s link journal post ↔
      Task.Ends task s link journal fun a s journal => post (.ok a) s journal := Iff.rfl

@[simp] theorem ends_on (part : σ → τ) (put : τ → σ → σ) (act : Act τ α) :
    Ends (Act.on part put act) s link journal post ↔
      Ends act (part s) link journal fun r t journal => post r (put t s) journal := Iff.rfl

@[simp] theorem ends_ofTask (task : Task σ α) :
    Ends (Act.ofTask task) s link journal post ↔
      Task.Ends task s link journal fun a s journal => post (.ok a) s journal := Iff.rfl

@[simp] theorem ends_outcome (act : Act σ α)
    {post : Except Fault (Except Fault α) → σ → Journal → Prop} :
    Ends act.outcome s link journal post ↔
      Ends act s link journal fun r s journal => post (.ok r) s journal := Iff.rfl

@[simp] theorem ends_discard (act : Act σ α) {post : Except Fault PUnit → σ → Journal → Prop} :
    Ends (discard act) s link journal post ↔
      Ends act s link journal fun r s journal => post (r.map fun _ => ⟨⟩) s journal :=
  ends_map _ _

end Act

end TerminusMonitor
