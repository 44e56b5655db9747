import TerminusMonitor.Proofs.Turn

/-!
The order of the deeds of a turn.

A turn first arranges things, then takes in outcomes, and then sends requests. It takes
in several outcomes only when requests have expired.

* `Turn.outcome_pending`: outcomes are of requests that were pending;
* `Turn.begun_idle`: a walk is started only if none of its terminus is under way;
* `Turn.calm_after`: after an outcome or a request, a turn takes in nothing but requests
  that have expired.
-/

namespace TerminusMonitor

variable {μ : Type} {m : Monitor μ} {link : Link} {journal : Journal}

namespace Deed

/-- Whether a deed comes before outcomes and requests. -/
def arranges : Deed → Bool
  | placed .. | removed _ | lost _ | mapped _ | shared | begun _ => true
  | settled _ | asked .. | unsent .. | polled .. => false

/-- Whether a deed has to do with a request that is made. -/
def sends : Deed → Bool
  | asked .. | unsent .. | polled .. => true
  | placed .. | removed _ | lost _ | mapped _ | shared | begun _ | settled _ => false

/-- The outcome that a deed takes in, if it takes one in. -/
def outcome? : Deed → Option (Completion Purpose)
  | settled completion => some completion
  | _ => none

/-- A request is made, or one has expired. -/
def Calm (deed : Deed) : Prop :=
  deed.sends = true ∨ ∃ completion, deed = settled completion ∧ completion.result = .error .timedOut

end Deed

/-! ### Requests -/

/-- When walks go on, records are asked for, or the transport does not send the requests. -/
theorem Monitor.mem_asks {tids : List Tid} {deed : Deed}
    (mem : deed ∈ m.asks link journal tids) :
    (∃ key tid handle, deed = .asked key tid handle) ∨
      ∃ tid handle fault, deed = .unsent tid handle fault := by
  induction tids generalizing m journal with
  | nil => cases mem
  | cons tid rest ih =>
    rw [asks, List.mem_append] at mem
    rcases mem with first | later
    · unfold asking at first
      split at first
      · split at first
        · cases first
        · dsimp only at first
          split at first
          · exact .inl ⟨_, _, _, List.mem_singleton.mp first⟩
          · exact .inr ⟨_, _, _, List.mem_singleton.mp first⟩
          · cases first
      · cases first
    · split at later
      · cases later
      · exact ih later

theorem Monitor.sends_of_mem_asks {tids : List Tid} {deed : Deed}
    (mem : deed ∈ m.asks link journal tids) : deed.sends = true := by
  rcases mem_asks mem with ⟨_, _, _, rfl⟩ | ⟨_, _, _, rfl⟩ <;> rfl

/-- Looks in turn ask for readings alone. -/
theorem Watch.polled_of_mem_polls {w : Watch Purpose} {now : Nat}
    {sensors : List (Eid × NumericSensor)} {deed : Deed}
    (mem : deed ∈ w.polls link journal now sensors) : ∃ key sensor, deed = .polled key sensor := by
  induction sensors generalizing w journal with
  | nil => cases mem
  | cons e rest ih =>
    rw [polls, List.mem_append] at mem
    rcases mem with first | later
    · unfold polling at first
      split at first
      · split at first
        · cases first
        · dsimp only at first
          split at first
          · exact ⟨_, _, List.mem_singleton.mp first⟩
          · cases first
      · cases first
    · split at later
      · cases later
      · exact ih later

theorem Watch.sends_of_mem_polls {w : Watch Purpose} {now : Nat}
    {sensors : List (Eid × NumericSensor)} {deed : Deed}
    (mem : deed ∈ w.polls link journal now sensors) : deed.sends = true := by
  obtain ⟨_, _, rfl⟩ := polled_of_mem_polls mem
  rfl

namespace Operation

variable {operation : Operation μ} {deed : Deed}

theorem polled_of_mem_ticked (mem : deed ∈ operation.ticked m link journal) :
    ∃ key sensor, deed = .polled key sensor := by
  unfold ticked at mem
  split at mem
  · dsimp only at mem
    split at mem
    · cases mem
    · unfold Watch.ticking at mem
      split at mem
      · exact Watch.polled_of_mem_polls mem
      · cases mem
  · cases mem

theorem sends_of_mem_ticked (mem : deed ∈ operation.ticked m link journal) :
    deed.sends = true := by
  obtain ⟨_, _, rfl⟩ := polled_of_mem_ticked mem
  rfl

theorem arranges_of_mem_arranged (mem : deed ∈ operation.arranged m) : deed.arranges = true := by
  unfold arranged at mem
  split at mem
  · split at mem
    · cases List.mem_singleton.mp mem; rfl
    · split at mem
      · cases mem
      · rcases List.mem_pair.mp mem with rfl | rfl <;> rfl
  · split at mem
    · cases List.mem_singleton.mp mem; rfl
    · cases mem
  · split at mem
    · cases List.mem_singleton.mp mem; rfl
    · cases mem
  · split at mem
    · cases List.mem_singleton.mp mem; rfl
    · cases mem
  · cases List.mem_singleton.mp mem; rfl
  · cases List.mem_singleton.mp mem; rfl
  · cases mem

/-- A walk is started by discovery, if none of the terminus is under way. -/
theorem discover_of_begun {tid : Tid} (mem : .begun tid ∈ operation.arranged m) :
    operation = .discover tid ∧ m.termini.contains tid = true ∧ m.isDiscovering tid = false := by
  unfold arranged at mem
  split at mem
  · split at mem
    · simp at mem
    · split at mem <;> simp at mem
  · split at mem <;> simp at mem
  · split at mem <;> simp at mem
  · split at mem
    next idle =>
      cases List.mem_singleton.mp mem
      exact ⟨rfl, by simpa using idle⟩
    next => cases mem
  · simp at mem
  · simp at mem
  · cases mem

end Operation

/-! ### Outcomes -/

/-- Whether completions are of requests that are pending, and of expired ones but for
the first. -/
structure Monitor.Awaits (m : Monitor μ) (completions : List (Completion Purpose)) : Prop where
  pending : ∀ completion ∈ completions, m.IsPending completion.key completion.cookie
  late : completions.Pairwise fun _ later => later.result = .error .timedOut

namespace Monitor

theorem awaits_nil : m.Awaits [] := ⟨List.forall_mem_nil _, .nil⟩

theorem awaits_takeIn {eid : Eid} {bytes : List UInt8} :
    Act.Ends (takeIn eid bytes) m link journal fun result _ _ =>
      ∀ completions, result = .ok (some completions) → m.Awaits completions := by
  simp only [takeIn, onRequests, onWatch, Watch.onRequests, Act.ends_bind, Act.ends_on,
    Act.ends_ofTask]
  refine Correlator.ends_receive.mono ?_
  intro completion? c _ reception
  cases completion? with
  | none =>
    intro completions eq
    cases eq
  | some completion =>
    obtain ⟨p, pending, cookie, _⟩ := reception.pending
    simp only [Act.ends_bind, Act.ends_ofTask, Act.ends_pure]
    refine Task.ends_of_forall ?_
    intro _ _ _ completions eq
    cases eq
    exact ⟨List.forall_mem_singleton.mpr ⟨p, pending, cookie.symm⟩, List.pairwise_singleton ..⟩

/-- An operation opens with outcomes of requests that are pending. -/
theorem awaits_opening (m : Monitor μ) (link : Link) (journal : Journal)
    (operation : Operation μ) :
    Act.Ends operation.opening m link journal fun result _ _ =>
      ∀ completions, result = .ok (some completions) → m.Awaits completions := by
  cases operation with
  | update now =>
    simp only [Operation.opening, onRequests, onWatch, Watch.onRequests, Act.ends_bind,
      Act.ends_on]
    refine Correlator.ends_update.mono ?_
    intro result c _ lapse
    cases lapse with
    | reversed =>
      intro completions eq
      cases eq
    | expired forward sheds late =>
      simp only [Act.ends_ofTask, Act.ends_pure]
      refine Task.ends_of_forall ?_
      intro _ _ _ completions eq
      cases eq
      constructor
      · intro completion mem
        obtain ⟨p, pending, cookie⟩ := sheds.pending mem
        exact ⟨p, pending, cookie.symm⟩
      · refine List.pairwise_of_forall_mem_list ?_
        intro _ _ later mem
        exact late later mem
  | message eid bytes =>
    simp only [Operation.opening]
    split
    next header _ =>
      split
      next =>
        intro completions eq
        cases eq
      next => exact awaits_takeIn
    next =>
      rw [Act.ends_bind]
      exact awaits_takeIn
  | response eid bytes => exact awaits_takeIn
  | discover tid =>
    simp only [Operation.opening, Act.ends_bind, Act.ends_get]
    split
    next =>
      simp only [Act.ends_bind, Act.ends_lift, Effect.ends_log, Act.ends_modify, Act.ends_pure]
      intro completions eq
      cases eq
      exact awaits_nil
    next =>
      intro completions eq
      cases eq
  | _ =>
    intro completions eq
    cases eq

/-- What an operation does that takes in outcomes: it takes them in, then makes
requests. -/
theorem driven_eq (m : Monitor μ) (link : Link) (journal : Journal) (operation : Operation μ) :
    ∃ completions requests, m.driven link journal operation.opening =
      completions.map .settled ++ requests ∧ m.Awaits completions ∧
        ∀ deed ∈ requests, deed.sends = true := by
  have awaits := Act.ends_iff.mp (m.awaits_opening link journal operation)
  unfold driven
  split
  next completions opens =>
    exact ⟨completions, _, rfl, awaits completions opens, fun _ => sends_of_mem_asks⟩
  next => exact ⟨[], [], rfl, awaits_nil, List.forall_mem_nil _⟩

/-- No sensor is asked for a reading before the tick. -/
theorem polled_notMem_driven {opening : Act (Monitor μ) (Option (List (Completion Purpose)))}
    {key : RequestKey} {sensor : SensorKey} :
    .polled key sensor ∉ m.driven link journal opening := by
  intro mem
  unfold driven at mem
  split at mem
  next =>
    rcases List.mem_append.mp mem with settled | asked
    · obtain ⟨_, _, eq⟩ := List.mem_map.mp settled
      cases eq
    · rcases mem_asks asked with ⟨_, _, _, eq⟩ | ⟨_, _, _, eq⟩ <;> cases eq
  next => cases mem

/-- By then everything is arranged. -/
theorem arranges_of_mem_driven {operation : Operation μ} {deed : Deed}
    (mem : deed ∈ m.driven link journal operation.opening) : deed.arranges = false := by
  obtain ⟨completions, requests, driven, _, sends⟩ :=
    m.driven_eq link journal operation
  rw [driven, List.mem_append] at mem
  rcases mem with settled | requested
  · obtain ⟨_, _, rfl⟩ := List.mem_map.mp settled
    rfl
  · have sends := sends deed requested
    cases deed <;> first | rfl | cases sends

end Monitor

/-! ### Turns -/

namespace Turn

variable {t : Turn μ}

/-- The outcomes that a turn takes in. -/
def outcomes (t : Turn μ) (m : Monitor μ) : List (Completion Purpose) :=
  (t.deeds m).filterMap Deed.outcome?

theorem mem_outcomes {completion : Completion Purpose} :
    completion ∈ t.outcomes m ↔ .settled completion ∈ t.deeds m := by
  rw [outcomes, List.mem_filterMap]
  constructor
  · rintro ⟨deed, mem, outcome⟩
    cases deed with
    | settled => cases outcome; exact mem
    | _ => cases outcome
  · intro mem
    exact ⟨_, mem, rfl⟩

/-- A turn arranges things, takes in outcomes, and makes requests, in this order. -/
theorem deeds_eq :
    ∃ completions requests, t.deeds m =
      t.operation.arranged m ++ (completions.map .settled ++ requests) ∧ m.Awaits completions ∧
        ∀ deed ∈ requests, deed.sends = true := by
  obtain ⟨completions, requests, driven, awaits, sends⟩ :=
    m.driven_eq t.link [] t.operation
  refine ⟨completions, requests ++ t.operation.ticked m t.link [], ?_, awaits, ?_⟩
  · simp only [deeds, Operation.deeds, driven, List.append_assoc]
  · intro deed mem
    rcases List.mem_append.mp mem with asked | ticked
    · exact sends deed asked
    · exact Operation.sends_of_mem_ticked ticked

/-- A turn takes in outcomes of requests that were pending before. -/
theorem outcome_pending {completion : Completion Purpose} (settles : completion ∈ t.outcomes m) :
    m.IsPending completion.key completion.cookie := by
  obtain ⟨completions, requests, deeds, awaits, sends⟩ := deeds_eq (m := m) (t := t)
  rw [mem_outcomes, deeds, List.mem_append, List.mem_append] at settles
  rcases settles with arranged | settled | requested
  · cases Operation.arranges_of_mem_arranged arranged
  · obtain ⟨_, mem, eq⟩ := List.mem_map.mp settled
    cases eq
    exact awaits.pending completion mem
  · cases sends _ requested

/-- A turn starts a walk by discovery, and only if none of the terminus was under way
before. -/
theorem discover_of_begun {tid : Tid} (begins : .begun tid ∈ t.deeds m) :
    t.operation = .discover tid ∧ m.termini.contains tid = true ∧ m.isDiscovering tid = false := by
  obtain ⟨completions, requests, deeds, _, sends⟩ := deeds_eq (m := m) (t := t)
  rw [deeds, List.mem_append, List.mem_append] at begins
  rcases begins with arranged | settled | requested
  · exact Operation.discover_of_begun arranged
  · obtain ⟨_, _, eq⟩ := List.mem_map.mp settled
    cases eq
  · cases sends _ requested

theorem begun_idle {tid : Tid} (begins : .begun tid ∈ t.deeds m) : m.isDiscovering tid = false :=
  (discover_of_begun begins).2.2

/-- After an outcome or a request, a turn only makes requests and takes in the outcomes
of those that have expired. -/
theorem calm_after {earlier later : List Deed} {deed : Deed}
    (deeds : t.deeds m = earlier ++ deed :: later) (begins : deed.arranges = false) :
    ∀ deed ∈ later, deed.Calm := by
  obtain ⟨completions, requests, split, awaits, sends⟩ := deeds_eq (m := m) (t := t)
  have ordered : (t.deeds m).Pairwise fun deed later => deed.arranges = false → later.Calm := by
    rw [split]
    refine List.pairwise_append.mpr ⟨?_, List.pairwise_append.mpr ⟨?_, ?_, ?_⟩, ?_⟩
    · refine List.pairwise_of_forall_mem_list ?_
      intro deed mem _ _ begins
      cases begins.symm.trans (Operation.arranges_of_mem_arranged mem)
    · refine List.pairwise_map.mpr (awaits.late.imp ?_)
      intro _ completion late _
      exact .inr ⟨completion, rfl, late⟩
    · refine List.pairwise_of_forall_mem_list ?_
      intro _ _ later mem _
      exact .inl (sends later mem)
    · intro _ _ later mem _
      exact .inl (sends later mem)
    · intro deed mem _ _ begins
      cases begins.symm.trans (Operation.arranges_of_mem_arranged mem)
  rw [deeds] at ordered
  obtain ⟨_, tail, _⟩ := List.pairwise_append.mp ordered
  intro later mem
  exact List.rel_of_pairwise_cons tail mem begins

end Turn

end TerminusMonitor
