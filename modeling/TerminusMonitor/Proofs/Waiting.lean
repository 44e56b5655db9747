import TerminusMonitor.Proofs.Safety
import TerminusMonitor.Proofs.Succession

/-!
Walks that wait, and requests that keep them waiting.

A walk waits when its next record was not asked for yet.

* `Scene.Attended.move`: a walk that does not wait has its request under way, which went to
  the endpoint of its terminus;
* `Moves.retains`: only outcomes and new walks make a walk wait, and only outcomes free an
  instance ID of a pending request;
* `Move.waits`: a walk waits until its record is asked for, an outcome for it is taken in, or
  its terminus is removed.
-/

namespace TerminusMonitor

variable {μ : Type} {link : Link} {journal : Journal} {m m' m'' : Monitor μ} {tid : Tid}

/-! ### Walks under way -/

/-- A record that comes does not leave its walk in flight. -/
theorem Monitor.waits_recorded {result : Except Fault Response} {walk : Walk}
    (found : (m.recorded tid result).walks.get? tid = some walk) : walk.inFlight = false := by
  unfold recorded at found
  split at found
  next none => cases none.symm.trans found
  next =>
    split at found
    next =>
      rw [walks_finished, if_pos rfl] at found
      cases found
    next =>
      dsimp only at found
      split at found
      next =>
        rw [walks_finished, if_pos rfl] at found
        cases found
      next =>
        rw [Table.get?_modify, if_pos rfl] at found
        obtain ⟨_, _, rfl⟩ := Option.map_eq_some_iff.mp found
        rfl

theorem Monitor.waits_settled {completion : Completion Purpose} {handle : UInt32} {walk : Walk}
    (asks : completion.cookie.record? tid = some handle)
    (found : (m.settled completion).walks.get? tid = some walk) : walk.inFlight = false := by
  obtain ⟨key, cookie, result⟩ := completion
  cases cookie with
  | reading | effecter => cases asks
  | record tid' handle' =>
    simp only [Purpose.record?] at asks
    split at asks
    next own =>
      subst own
      exact waits_recorded found
    next => cases asks

namespace Scene

variable {s s' : Scene μ} {deeds : List Deed}

/-- Each walk is one of a known terminus. If its record was asked for, the request is
pending or in hand, and went to the endpoint of the terminus. -/
def Attended (s : Scene μ) : Prop :=
  ∀ tid walk, s.monitor.walks.get? tid = some walk →
    ∃ eid, s.monitor.home tid = some eid ∧
      (walk.inFlight = true → ∃ iid, (⟨eid, iid⟩, .record tid walk.next) ∈ s.requests)

namespace Attended

/-- A move that leaves alone the walks that are left, their termini and the requests. -/
theorem kept (start : s.Attended)
    (walks : ∀ tid walk, s'.monitor.walks.get? tid = some walk →
      s.monitor.walks.get? tid = some walk ∧ s'.monitor.home tid = s.monitor.home tid)
    (requests : ∀ request ∈ s.requests, request ∈ s'.requests) : s'.Attended := by
  intro tid walk found
  obtain ⟨found, home⟩ := walks tid walk found
  obtain ⟨eid, known, asked⟩ := start tid walk found
  refine ⟨eid, home.trans known, ?_⟩
  intro inFlight
  obtain ⟨iid, mem⟩ := asked inFlight
  exact ⟨iid, requests _ mem⟩

/-- A move that leaves walks and termini alone. -/
theorem still (start : s.Attended) (walks : s'.monitor.walks = s.monitor.walks)
    (home : ∀ tid, s'.monitor.home tid = s.monitor.home tid)
    (requests : ∀ request ∈ s.requests, request ∈ s'.requests) : s'.Attended :=
  start.kept (fun tid _ found => ⟨walks ▸ found, home tid⟩) requests

/-- A move that ends a walk. -/
theorem ended (start : s.Attended)
    (walks : ∀ tid', s'.monitor.walks.get? tid' =
      if tid' = tid then none else s.monitor.walks.get? tid')
    (home : ∀ tid', tid' ≠ tid → s'.monitor.home tid' = s.monitor.home tid')
    (requests : ∀ request ∈ s.requests, request ∈ s'.requests) : s'.Attended := by
  refine start.kept ?_ requests
  intro tid' walk found
  rw [walks] at found
  split at found
  next => cases found
  next other => exact ⟨found, home tid' other⟩

variable {m : Monitor μ} {hand : List (Completion Purpose)}

/-- A terminus that was not there before is not that of a walk. -/
theorem home_placed {terminus : Terminus} {tid' : Tid} {walk : Walk}
    (start : Attended ⟨m, hand⟩) (unknown : m.termini.get? tid = none)
    (found : m.walks.get? tid' = some walk) :
    ({ m with termini := m.termini.insert tid terminus } : Monitor μ).home tid' =
      m.home tid' := by
  obtain ⟨eid, known, _⟩ := start tid' walk found
  have other : tid' ≠ tid := by
    rintro rfl
    rw [Monitor.home, unknown] at known
    cases known
  simp only [Monitor.home, Table.get?_insert_of_ne other]

/-- A move that asks for the record of a walk. -/
theorem asked {terminus : Terminus} {walk : Walk} {iid : InstanceId} {request : Request}
    {message : List UInt8} (start : Attended ⟨m, []⟩)
    (known : m.termini.get? tid = some terminus) (found : m.walks.get? tid = some walk)
    (fresh : m.pending.get? ⟨terminus.eid, iid⟩ = none) :
    Attended
      ⟨{ m.withRequests (m.opened ⟨terminus.eid, iid⟩ request message (.record tid walk.next)) with
          walks := m.walks.modify tid fun w => { w with inFlight := true } }, []⟩ := by
  have perm := @requests_opened _ m (m.withRequests
    (m.opened ⟨terminus.eid, iid⟩ request message (.record tid walk.next))) [] _ _ fresh rfl
  intro tid' walk' found'
  simp only [Table.get?_modify] at found'
  split at found'
  next own =>
    subst own
    rw [found] at found'
    cases found'
    refine ⟨terminus.eid, ?_, fun _ => ⟨iid, perm.mem_iff.mpr List.mem_cons_self⟩⟩
    exact congrArg (Option.map _) known
  next =>
    obtain ⟨eid, home, asked⟩ := start tid' walk' found'
    refine ⟨eid, home, fun inFlight => ?_⟩
    obtain ⟨iid', mem⟩ := asked inFlight
    exact ⟨iid', perm.mem_iff.mpr (List.mem_cons_of_mem _ mem)⟩

theorem settled {completion : Completion Purpose} (start : Attended ⟨m, completion :: hand⟩) :
    Attended ⟨m.settled completion, hand⟩ := by
  intro tid walk found
  have requests := requests_settled m hand completion
  cases asks : completion.cookie.record? tid with
  | none =>
    have found' : m.walks.get? tid = some walk := Monitor.walk_settled asks ▸ found
    obtain ⟨eid, known, asked⟩ := start tid walk found'
    refine ⟨eid, Monitor.home_settled.trans known, ?_⟩
    intro inFlight
    obtain ⟨iid, mem⟩ := asked inFlight
    rcases List.mem_cons.mp (requests.mem_iff.mp mem) with same | later
    · have cookie : completion.cookie = .record tid walk.next := (congrArg Prod.snd same).symm
      simp [cookie, Purpose.record?] at asks
    · exact ⟨iid, later⟩
  | some handle =>
    cases found' : m.walks.get? tid with
    | none => cases (Monitor.idle_settled found').symm.trans found
    | some walk₀ =>
      obtain ⟨eid, known, _⟩ := start tid walk₀ found'
      refine ⟨eid, Monitor.home_settled.trans known, ?_⟩
      intro inFlight
      cases inFlight.symm.trans (Monitor.waits_settled asks found)

theorem move (move : Move s deeds s') (start : s.Attended) : s'.Attended := by
  cases move with
  | aside alike =>
    refine start.still alike.walks (fun tid => ?_) fun _ mem => ?_
    · rw [Monitor.home, Monitor.home, alike.termini]
    · rwa [requests_congr alike.pending]
  | @placed m hand tid eid name unknown =>
    exact start.kept (fun _ _ found => ⟨found, start.home_placed unknown found⟩) fun _ => id
  | reached =>
    exact start.still rfl (fun _ => Monitor.home_modifyTerminus fun _ => rfl) fun _ => id
  | lost =>
    exact start.still rfl (fun _ => Monitor.home_modifyTerminus fun _ => rfl) fun _ => id
  | removed =>
    refine start.ended (fun _ => Table.get?_erase) (fun _ other => ?_) fun _ => id
    simp only [Monitor.home, Table.get?_erase_of_ne other]
  | mapped => exact start.still rfl (fun _ => rfl) fun _ => id
  | shared => exact start.still rfl (fun _ => rfl) fun _ => id
  | dropped => exact start.still rfl (fun _ => rfl) fun _ => id
  | renewed =>
    refine start.still rfl (fun _ => rfl) fun _ mem => ?_
    rwa [requests_renewed]
  | shed pending cookie =>
    exact start.still rfl (fun _ => rfl) fun _ => (requests_shed pending cookie).mem_iff.mpr
  | settled => exact start.settled
  | @begun m hand tid terminus known idle =>
    intro tid' walk found
    simp only [Table.get?_insert] at found
    split at found
    next own =>
      cases found
      exact ⟨terminus.eid, by simp only [Monitor.home, own, known, Option.map_some], by simp⟩
    next => exact start tid' walk found
  | strayed => exact start.ended (fun _ => Table.get?_erase) (fun _ _ => rfl) fun _ => id
  | asked known found waiting free fresh => exact start.asked known found fresh
  | @unsent m tid terminus walk iid =>
    have requests := (Monitor.finished_frame (m.withRequests (m.refused terminus.eid iid)) tid).1
    have pending : ((m.withRequests (m.refused terminus.eid iid)).finished tid).pending =
        m.pending := by rw [requests]; rfl
    refine start.ended (fun _ => Monitor.walks_finished) (fun _ _ => Monitor.home_finished) ?_
    intro request mem
    rwa [requests_congr pending]
  | refused => exact start.still rfl (fun _ => rfl) fun _ => id
  | polled known listed reachable due free fresh =>
    refine start.still rfl (fun _ => rfl) fun _ mem => ?_
    exact (requests_opened fresh rfl).mem_iff.mpr (List.mem_cons_of_mem _ mem)
  | @failed m s terminus iid =>
    refine start.still rfl (fun _ => ?_) fun _ => id
    exact @Monitor.home_modifyTerminus _ (m.withRequests (m.refused terminus.eid iid)) _ _ _
      fun _ => rfl
  | set free fresh =>
    refine start.still rfl (fun _ => rfl) fun _ mem => ?_
    exact (requests_opened fresh rfl).mem_iff.mpr (List.mem_cons_of_mem _ mem)

end Attended

end Scene

/-! ### Walks that wait -/

/-- Whether all instance IDs of an endpoint are those of pending requests. -/
def Correlator.IsFull {κ : Type} (c : Correlator κ) (eid : Eid) : Prop :=
  ∀ iid, c.pending.contains ⟨eid, iid⟩ = true

/-- When nobody else uses the pools, no ID is free only at such an endpoint. -/
theorem Correlator.Accounts.isFull {κ : Type} {c : Correlator κ} {eid : Eid}
    (accounts : c.Accounts fun _ => False) (none : (c.ids.mask eid).lowestFree? = none) :
    c.IsFull eid := by
  intro iid
  have held : c.ids.holds eid iid = true := IdMask.lowestFree?_eq_none_iff.mp none iid
  have owned := (@Pools.Split.used _ _ _ accounts ⟨eid, iid⟩).mp held
  rwa [or_false] at owned

namespace Monitor

/-- Whether the walk of a terminus has its next record still to ask for. -/
def Waits (m : Monitor μ) (tid : Tid) : Prop :=
  ∃ walk, m.walks.get? tid = some walk ∧ walk.inFlight = false

theorem mem_waitingWalks : tid ∈ m.waitingWalks ↔ m.Waits tid := by
  simp only [waitingWalks, Table.mem_keys_iff, Table.get?_filter_eq_some_iff, Waits,
    Bool.not_eq_true']

/-- Each walk that waits finds all instance IDs of its endpoint taken. -/
def Deferred (m : Monitor μ) : Prop :=
  ∀ tid, m.Waits tid → ∃ eid, m.home tid = some eid ∧ m.IsFull eid

/-- The walks that wait later are some of those that waited before, at the same endpoints. -/
structure Thins (m m' : Monitor μ) : Prop where
  waits : ∀ {tid}, m'.Waits tid → m.Waits tid ∧ m'.home tid = m.home tid

namespace Thins

theorem refl (m : Monitor μ) : m.Thins m := ⟨fun waits => ⟨waits, rfl⟩⟩

theorem trans (first : m.Thins m') (later : m'.Thins m'') : m.Thins m'' where
  waits waits := by
    obtain ⟨waits, home'⟩ := later.waits waits
    obtain ⟨waits, home⟩ := first.waits waits
    exact ⟨waits, home'.trans home⟩

theorem length_le (thins : m.Thins m') : m'.waitingWalks.length ≤ m.waitingWalks.length := by
  refine (List.subperm_of_subset (Table.nodup_keys _) fun tid mem => ?_).length_le
  exact mem_waitingWalks.mpr (thins.waits (mem_waitingWalks.mp mem)).1

theorem length_lt (thins : m.Thins m') (waits : m.Waits tid) (gone : ¬ m'.Waits tid) :
    m'.waitingWalks.length < m.waitingWalks.length := by
  have once : (tid :: m'.waitingWalks).Nodup :=
    List.nodup_cons.mpr ⟨mt mem_waitingWalks.mp gone, Table.nodup_keys _⟩
  refine (List.subperm_of_subset once fun tid' mem => ?_).length_le
  rcases List.mem_cons.mp mem with rfl | mem
  · exact mem_waitingWalks.mpr waits
  · exact mem_waitingWalks.mpr (thins.waits (mem_waitingWalks.mp mem)).1

end Thins

/-- Nor did an instance ID become free at an endpoint where all were taken. -/
structure Retains (m m' : Monitor μ) : Prop extends Thins m m' where
  full : ∀ {eid}, m.IsFull eid → m'.IsFull eid

namespace Retains

theorem refl (m : Monitor μ) : m.Retains m := ⟨.refl m, id⟩

theorem trans (first : m.Retains m') (later : m'.Retains m'') : m.Retains m'' where
  toThins := first.toThins.trans later.toThins
  full full := later.full (first.full full)

/-- Nothing of it happened to the walks, and requests only came. -/
theorem still (walks : m'.walks = m.walks) (home : ∀ tid, m'.home tid = m.home tid)
    (pending : ∀ key, m.pending.contains key = true → m'.pending.contains key = true) :
    m.Retains m' where
  waits {tid} waits := by
    rw [Waits, walks] at waits
    exact ⟨waits, home tid⟩
  full full iid := pending _ (full iid)

/-- A walk ended, and requests only came. -/
theorem ended
    (walks : ∀ tid', m'.walks.get? tid' = if tid' = tid then none else m.walks.get? tid')
    (home : ∀ tid', tid' ≠ tid → m'.home tid' = m.home tid')
    (pending : ∀ key, m.pending.contains key = true → m'.pending.contains key = true) :
    m.Retains m' where
  waits {tid'} := by
    rintro ⟨walk, found, waiting⟩
    rw [walks] at found
    split at found
    next => cases found
    next other => exact ⟨⟨walk, found, waiting⟩, home tid' other⟩
  full full iid := pending _ (full iid)

/-- A record was asked for. -/
theorem asked {key : RequestKey} {request : Request} {message : List UInt8} {purpose : Purpose} :
    m.Retains { m.withRequests (m.opened key request message purpose) with
      walks := m.walks.modify tid fun w => { w with inFlight := true } } where
  waits {tid'} := by
    rintro ⟨walk, found, waiting⟩
    simp only [Table.get?_modify] at found
    split at found
    next =>
      obtain ⟨_, _, rfl⟩ := Option.map_eq_some_iff.mp found
      cases waiting
    next => exact ⟨⟨walk, found, waiting⟩, rfl⟩
  full full iid := Table.contains_insert.mpr (.inr (full iid))

/-- A request for a record was not sent, so that its walk is over. -/
theorem unsent {eid : Eid} {iid : InstanceId} :
    m.Retains ((m.withRequests (m.refused eid iid)).finished tid) := by
  have requests := (finished_frame (m.withRequests (m.refused eid iid)) tid).1
  refine ended (fun _ => walks_finished) (fun _ _ => home_finished) ?_
  rw [requests]
  exact fun _ => id

end Retains

theorem Deferred.mono (deferred : m.Deferred) (retains : m.Retains m') : m'.Deferred := by
  intro tid waits
  obtain ⟨waits, home⟩ := retains.waits waits
  obtain ⟨eid, known, full⟩ := deferred tid waits
  exact ⟨eid, home.trans known, retains.full full⟩

end Monitor

/-! ### Moves -/

/-- Whether a deed makes a walk wait, or frees an instance ID. -/
def Deed.rouses : Deed → Bool
  | settled _ | begun _ => true
  | placed .. | removed _ | lost _ | mapped _ | shared | asked .. | unsent .. | polled .. => false

/-- Other moves between operations make no walk wait and free no instance ID. -/
theorem Move.retains {s s' : Scene μ} {deeds : List Deed} (move : Move s deeds s')
    (attended : s.Attended) (calm : ∀ deed ∈ deeds, deed.rouses = false) (hand : s'.hand = []) :
    s.hand = [] ∧ s.monitor.Retains s'.monitor := by
  cases move with
  | aside alike =>
    refine ⟨hand, .still alike.walks (fun tid => ?_) fun key => ?_⟩
    · rw [Monitor.home, Monitor.home, alike.termini]
    · rw [alike.pending]
      exact id
  | @placed m hand tid eid name unknown =>
    refine ⟨hand, ⟨fun {tid'} waits => ⟨waits, ?_⟩⟩, id⟩
    obtain ⟨walk, found, _⟩ := waits
    exact attended.home_placed unknown found
  | reached =>
    exact ⟨hand, .still rfl (fun _ => Monitor.home_modifyTerminus fun _ => rfl) fun _ => id⟩
  | lost =>
    exact ⟨hand, .still rfl (fun _ => Monitor.home_modifyTerminus fun _ => rfl) fun _ => id⟩
  | removed =>
    refine ⟨hand, .ended (fun _ => Table.get?_erase) (fun _ other => ?_) fun _ => id⟩
    simp only [Monitor.home, Table.get?_erase_of_ne other]
  | mapped => exact ⟨hand, .still rfl (fun _ => rfl) fun _ => id⟩
  | shared => exact ⟨hand, .still rfl (fun _ => rfl) fun _ => id⟩
  | dropped => exact ⟨hand, .still rfl (fun _ => rfl) fun _ => id⟩
  | renewed =>
    refine ⟨hand, .still rfl (fun _ => rfl) fun key pending => ?_⟩
    exact Table.contains_modify.trans pending
  | shed => simp at hand
  | settled => cases calm _ List.mem_cons_self
  | begun => cases calm _ List.mem_cons_self
  | strayed =>
    exact ⟨hand, .ended (fun _ => Table.get?_erase) (fun _ _ => rfl) fun _ => id⟩
  | asked => exact ⟨hand, .asked⟩
  | unsent => exact ⟨hand, .unsent⟩
  | refused => exact ⟨hand, .still rfl (fun _ => rfl) fun _ => id⟩
  | polled =>
    refine ⟨hand, .still rfl (fun _ => rfl) fun key pending => ?_⟩
    exact Table.contains_insert.mpr (.inr pending)
  | @failed m s terminus iid =>
    refine ⟨hand, .still rfl (fun _ => ?_) fun _ => id⟩
    exact @Monitor.home_modifyTerminus _ (m.withRequests (m.refused terminus.eid iid)) _ _ _
      fun _ => rfl
  | set =>
    refine ⟨hand, .still rfl (fun _ => rfl) fun key pending => ?_⟩
    exact Table.contains_insert.mpr (.inr pending)

theorem Moves.retains {s s' : Scene μ} {deeds : List Deed} (moves : Moves s deeds s')
    (attended : s.Attended) (calm : ∀ deed ∈ deeds, deed.rouses = false) (hand : s'.hand = []) :
    s.hand = [] ∧ s.monitor.Retains s'.monitor := by
  induction moves with
  | done => exact ⟨hand, .refl _⟩
  | step move _ ih =>
    obtain ⟨calmFirst, calmRest⟩ := List.forall_mem_append.mp calm
    obtain ⟨hand, later⟩ := ih (attended.move move) calmRest hand
    obtain ⟨hand, first⟩ := move.retains attended calmFirst hand
    exact ⟨hand, first.trans later⟩

/-! ### The end of a wait -/

/-- Whether a deed ends the wait of a walk: its record is asked for, or the transport does
not send the request, or it takes in an outcome. That is one of a request of an earlier
walk. -/
def Deed.resumes (tid : Tid) : Deed → Bool
  | asked _ tid' _ | unsent tid' _ _ => tid' = tid
  | settled completion => (completion.cookie.record? tid).isSome
  | placed .. | removed _ | lost _ | mapped _ | shared | begun _ | polled .. => false

/-- Until then a walk waits, if its terminus is not removed. -/
theorem Move.waits {s s' : Scene μ} {deeds : List Deed} (move : Move s deeds s')
    (attended : s.Attended) (stays : .removed tid ∉ deeds)
    (still : ∀ deed ∈ deeds, deed.resumes tid = false) (waits : s.monitor.Waits tid) :
    s'.monitor.Waits tid := by
  obtain ⟨walk, found, waiting⟩ := waits
  refine ⟨walk, ?_, waiting⟩
  cases move with
  | aside alike => rwa [alike.walks]
  | removed =>
    rw [Table.get?_erase_of_ne]
    · exact found
    · rintro rfl
      exact stays List.mem_cons_self
  | settled =>
    have other := still _ List.mem_cons_self
    rw [Monitor.walk_settled (Option.not_isSome_iff_eq_none.mp (Bool.eq_false_iff.mp other))]
    exact found
  | begun _ idle =>
    rw [Table.get?_insert_of_ne]
    · exact found
    · rintro rfl
      cases idle.symm.trans found
  | strayed unknown =>
    rw [Table.get?_erase_of_ne]
    · exact found
    · rintro rfl
      obtain ⟨eid, home, _⟩ := attended tid walk found
      simp only [Monitor.home, unknown] at home
      cases home
  | asked =>
    have other := still _ List.mem_cons_self
    rw [Table.get?_modify_of_ne]
    · exact found
    · rintro rfl
      simp [Deed.resumes] at other
  | unsent =>
    have other := still _ List.mem_cons_self
    rw [Monitor.walks_finished, if_neg]
    · exact found
    · rintro rfl
      simp [Deed.resumes] at other
  | _ => exact found

end TerminusMonitor
