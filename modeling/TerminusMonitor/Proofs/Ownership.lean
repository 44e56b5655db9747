import TerminusMonitor.Proofs.Correlator

/-!
Who holds the instance IDs in use.

The pools know no holders. They are split between two sides when each ID in use belongs
to one of the two (`Pools.Split`). A correlator accounts for its pools when the IDs in
use are those of its pending requests and, apart from them, those that others hold
(`Correlator.Accounts`).

* `Pools.Split.taken`, `Pools.Split.released`: a side may take a free ID, and free one of
  its own;
* `Accounts.registration`, `Accounts.reception`, `Accounts.lapse`: each operation of a
  correlator keeps the account, and is at fault with the state of the requests only when
  time goes back;
* `Accounts.inUse_eq`: as many IDs are in use as there are requests, if others hold none;
* `clean_register`, `Accounts.clean_receive`, `Accounts.clean_update`: none of them fails
  to free an ID.
-/

namespace TerminusMonitor

variable {κ : Type} {link : Link} {journal : Journal}

/-! ### Two sides -/

/-- Each ID in use belongs to one of two sides, and no other ID belongs to any. -/
structure Pools.Split (p : Pools) (ours theirs : RequestKey → Prop) : Prop where
  used : ∀ {key : RequestKey}, p.holds key.eid key.iid = true ↔ ours key ∨ theirs key
  apart : ∀ {key}, theirs key → ¬ ours key

namespace Pools.Split

variable {p p' : Pools} {ours ours' theirs : RequestKey → Prop} {eid : Eid} {iid : InstanceId}

theorem swap (split : p.Split ours theirs) : p.Split theirs ours where
  used := split.used.trans or_comm
  apart owned owned' := split.apart owned' owned

theorem congr (split : p.Split ours theirs) (same : p'.masks = p.masks) :
    p'.Split ours theirs where
  used := by
    intro key
    rw [holds_congr same, split.used]
  apart := split.apart

/-- A free ID belongs to nobody. -/
theorem of_free (split : p.Split ours theirs) (free : (p.mask eid).lowestFree? = some iid) :
    ¬ ours ⟨eid, iid⟩ ∧ ¬ theirs ⟨eid, iid⟩ := by
  have unheld : ¬ p.holds eid iid = true :=
    Bool.eq_false_iff.mp (IdMask.holds_of_lowestFree? free)
  exact not_or.mp (mt (@used _ _ _ split ⟨eid, iid⟩).mpr unheld)

theorem taken (split : p.Split ours theirs) (free : (p.mask eid).lowestFree? = some iid)
    (more : ∀ {key}, ours' key ↔ key = ⟨eid, iid⟩ ∨ ours key) :
    (p.taken eid iid).Split ours' theirs where
  used := by
    intro key
    have taken := @holds_taken p ⟨eid, iid⟩ key
    dsimp only at taken
    rw [taken, Bool.or_eq_true, decide_eq_true_eq, split.used, more, or_assoc]
  apart := by
    intro key owned owned'
    rcases more.mp owned' with rfl | owned'
    · exact (split.of_free free).2 owned
    · exact split.apart owned owned'

theorem released (split : p.Split ours theirs) (own : ours ⟨eid, iid⟩)
    (fewer : ∀ {key}, ours' key ↔ key ≠ ⟨eid, iid⟩ ∧ ours key) :
    (p.released eid iid).Split ours' theirs where
  used := by
    intro key
    have released := @holds_released p ⟨eid, iid⟩ key
    dsimp only at released
    rw [released, Bool.and_eq_true, Bool.not_eq_true', decide_eq_false_iff_not, split.used, fewer]
    constructor
    · rintro ⟨ne, owned | owned⟩
      · exact .inl ⟨ne, owned⟩
      · exact .inr owned
    · rintro (⟨ne, owned⟩ | owned)
      · exact ⟨ne, .inl owned⟩
      · exact ⟨fun same => split.apart owned (same ▸ own), .inr owned⟩
  apart owned owned' := split.apart owned (fewer.mp owned').2

/-- A free ID that is taken may be freed again. -/
theorem restored (split : p.Split ours theirs) (free : (p.mask eid).lowestFree? = some iid) :
    ((p.taken eid iid).released eid iid).Split ours theirs := by
  refine (split.taken free Iff.rfl).released (.inl rfl) ?_
  intro key
  constructor
  · intro owned
    exact ⟨fun same => (split.of_free free).1 (same ▸ owned), .inr owned⟩
  · rintro ⟨ne, same | owned⟩
    · exact absurd same ne
    · exact owned

end Pools.Split

namespace Correlator

variable {c c' : Correlator κ} {others : RequestKey → Prop}

/-- The instance IDs in use are those of the pending requests and, apart from them,
those that others hold. -/
def Accounts (c : Correlator κ) (others : RequestKey → Prop) : Prop :=
  c.ids.Split (fun key => c.pending.contains key = true) others

namespace Accounts

/-- With no instance ID in use, no request and nothing held, the account is even. -/
theorem fresh (ids : c.ids = {}) (pending : c.pending = ∅) (none : ∀ key, ¬ others key) :
    c.Accounts others where
  used := by
    intro key
    rw [ids, pending, Pools.holds_empty]
    exact ⟨Bool.noConfusion, fun owned => owned.elim Bool.noConfusion fun held =>
      (none key held).elim⟩
  apart {key} held := (none key held).elim

/-- As many instance IDs of an endpoint are in use as there are requests to it, if others
hold none of them. -/
theorem inUse_eq {eid : Eid} (accounts : c.Accounts others)
    (alone : ∀ iid, ¬ others ⟨eid, iid⟩) : c.ids.inUse eid = c.pendingFor eid := by
  have same : (((List.finRange 32).filter (c.ids.mask eid).holds).map (RequestKey.mk eid)).Perm
      (c.pending.keys.filter fun key => key.eid == eid) := by
    refine (List.perm_ext_iff_of_nodup ?_ ((Table.nodup_keys _).filter _)).mpr ?_
    · refine List.pairwise_map.mpr (((List.nodup_finRange 32).filter _).imp ?_)
      exact fun ne eq => ne (RequestKey.mk.inj eq).2
    · rintro ⟨eid', iid⟩
      have used := @Pools.Split.used _ _ _ accounts ⟨eid, iid⟩
      rw [or_iff_left (alone iid), Table.contains_iff, ← Table.mem_keys_iff] at used
      simp only [List.mem_map, List.mem_filter, List.mem_finRange, true_and, RequestKey.mk.injEq,
        beq_iff_eq]
      constructor
      · rintro ⟨iid, held, rfl, rfl⟩
        exact ⟨used.mp held, rfl⟩
      · rintro ⟨mem, rfl⟩
        exact ⟨iid, used.mpr mem, rfl, rfl⟩
  calc c.ids.inUse eid
      = (((List.finRange 32).filter (c.ids.mask eid).holds).map (RequestKey.mk eid)).length := by
        rw [List.length_map, ← List.countP_eq_length_filter]; rfl
    _ = c.pendingFor eid := by
        rw [same.length_eq, ← List.countP_eq_length_filter]; rfl

/-! ### Changes -/

theorem opened {key : RequestKey} {request : Request} {message : List UInt8} {cookie : κ}
    (accounts : c.Accounts others) (free : (c.ids.mask key.eid).lowestFree? = some key.iid) :
    (c.opened key request message cookie).Accounts others :=
  Pools.Split.taken accounts free Table.contains_insert

theorem refused {eid : Eid} {iid : InstanceId} (accounts : c.Accounts others)
    (free : (c.ids.mask eid).lowestFree? = some iid) : (c.refused eid iid).Accounts others :=
  Pools.Split.restored accounts free

theorem closed {key : RequestKey} (accounts : c.Accounts others)
    (pending : c.pending.contains key = true) : (c.closed key).Accounts others :=
  Pools.Split.released accounts pending Table.contains_erase

theorem renewed {key : RequestKey} {left : Nat} (accounts : c.Accounts others) :
    (c.renewed key left).Accounts others := by
  have same : (fun key' => (c.renewed key left).pending.contains key' = true) =
      fun key' => c.pending.contains key' = true := by
    funext key'
    rw [Correlator.renewed, Table.contains_modify]
  rwa [Accounts, same]

/-- Time does not matter. -/
theorem ticked {now : Nat} (accounts : c.Accounts others) :
    Accounts { c with clock := now } others := accounts

/-! ### Operations -/

/-- A request takes a free ID or none. So its ID has no pending request, and can be freed
again when it is not sent. -/
theorem registration {eid : Eid} {request : Request} {cookie : κ}
    {result : Except Fault InstanceId} (accounts : c.Accounts others)
    (registration : Registration c eid request cookie result c') :
    c'.Accounts others ∧ ∀ fault, result ≠ .error (.state fault) := by
  cases registration with
  | sent free => exact ⟨accounts.opened free, fun _ => no_fault⟩
  | exhausted => exact ⟨accounts, by simp⟩
  | @duplicate iid free taken =>
    exact absurd taken (Pools.Split.of_free accounts free).1
  | unwritten free => exact ⟨accounts.refused free, by simp⟩
  | unsent free => exact ⟨accounts.refused free, by simp⟩

theorem reception {eid : Eid} {message : List UInt8} {completion? : Option (Completion κ)}
    (accounts : c.Accounts others) (reception : Reception c eid message completion? c') :
    c'.Accounts others := by
  cases reception with
  | ignored => exact accounts
  | answered _ _ _ pending => exact accounts.closed (Table.contains_iff.mpr ⟨_, pending⟩)

theorem expiry {key : RequestKey} {completion? : Option (Completion κ)}
    (accounts : c.Accounts others) (expiry : Expiry c key completion? c') :
    c'.Accounts others := by
  cases expiry with
  | absent => exact accounts
  | resent => exact accounts.renewed
  | ended pending => exact accounts.closed (Table.contains_iff.mpr ⟨_, pending⟩)

theorem sheds {completions : List (Completion κ)} (accounts : c.Accounts others)
    (sheds : Sheds c completions c') : c'.Accounts others := by
  induction sheds with
  | done => exact accounts
  | renewed _ ih => exact ih accounts.renewed
  | closed pending _ _ ih => exact ih (accounts.closed (Table.contains_iff.mpr ⟨_, pending⟩))

/-- Time is at fault only when it goes back. -/
theorem lapse {now : Nat} {result : Except Fault (List (Completion κ))}
    (accounts : c.Accounts others) (lapse : Lapse c now result c') :
    c'.Accounts others ∧
      ∀ fault, result = .error fault → fault = .state .timeReversed ∧ now < c.clock := by
  cases lapse with
  | reversed earlier => exact ⟨accounts, fun _ eq => ⟨(Except.error.inj eq).symm, earlier⟩⟩
  | expired _ sheds =>
    exact ⟨accounts.ticked.sheds sheds, fun _ => no_fault⟩

end Accounts

/-! ### Releases -/

/-- An attempt to register a request frees no ID but the one that it took. -/
theorem clean_register {eid : Eid} {request : Request} {cookie : κ} (clean : journal.Clean) :
    Act.Ends (register eid request cookie) c link journal fun _ _ journal' => journal'.Clean := by
  simp only [register, onIds, Act.ends_bind, Act.ends_on, Pools.ends_take]
  cases (c.ids.mask eid).lowestFree? with
  | none => exact clean.log _
  | some iid =>
    simp only [Act.ends_get]
    split
    next =>
      simpa [Pools.ends_free, Pools.holds_taken_self] using
        (clean.log (.duplicatePending ⟨eid, iid⟩)).woken _
    next =>
      simp only [Act.ends_bind, Act.ends_lift, ends_transmit]
      cases { request with instanceId := iid.toByte }.toBytes with
      | error fault =>
        simpa [Pools.ends_free, Pools.holds_taken_self] using
          (clean.log (.requestFailed eid request.command (.invalid fault))).woken _
      | ok message =>
        cases link eid (journal.attempts eid) with
        | none => simpa using clean.sent
        | some fault =>
          simpa [Pools.ends_free, Pools.holds_taken_self] using
            (clean.sent.log (.requestFailed eid request.command (.transport fault))).woken _

namespace Accounts

/-- The instance ID of a pending request can be freed. -/
theorem clean_finish {key : RequestKey} (accounts : c.Accounts others)
    (pending : c.pending.contains key = true) (clean : journal.Clean) :
    Task.Ends (finish key) c link journal fun _ _ journal' => journal'.Clean := by
  have held : c.ids.holds key.eid key.iid = true := accounts.used.mpr (.inl pending)
  simp only [finish, onIds, Task.ends_bind, Task.ends_modify, Task.ends_discard, Act.ends_run,
    Act.ends_on, Pools.ends_free, held, if_true]
  exact clean.woken _

theorem clean_receive {eid : Eid} {message : List UInt8} (accounts : c.Accounts others)
    (clean : journal.Clean) :
    Task.Ends (receive eid message) c link journal fun _ _ journal' => journal'.Clean := by
  unfold receive
  cases Header.ofBytes message with
  | error fault =>
    simpa using clean.remark.log (.badMessage eid fault)
  | ok header =>
    dsimp only
    cases header.request with
    | true => simpa using clean.log (.strayRequest eid header.command)
    | false =>
      cases InstanceId.ofByte? header.instanceId with
      | none => exact clean
      | some iid =>
        simp only [Bool.false_eq_true, if_false, Task.ends_bind, Task.ends_get]
        cases pending : c.pending.get? ⟨eid, iid⟩ with
        | none => exact clean.log _
        | some p =>
          dsimp only
          split
          next => exact clean.log _
          next =>
            rw [Task.ends_bind]
            refine (accounts.clean_finish (Table.contains_iff.mpr ⟨p, pending⟩) clean).mono ?_
            intro _ _ _ clean
            cases Response.ofBytes message with
            | error fault => exact clean.log _
            | ok response => exact clean

theorem clean_expire {key : RequestKey} (accounts : c.Accounts others) (clean : journal.Clean) :
    Task.Ends (expire key) c link journal fun _ _ journal' => journal'.Clean := by
  simp only [expire, Task.ends_bind, Task.ends_get]
  cases pending : c.pending.get? key with
  | none => exact clean
  | some p =>
    dsimp only
    split
    next =>
      simp only [Task.ends_bind, Task.ends_lift, Effect.ends_log]
      have noted := clean.log (.requestExpired key p.command)
      exact accounts.clean_finish (Table.contains_iff.mpr ⟨p, pending⟩) noted
    next left _ =>
      simp only [Task.ends_bind, Task.ends_modify, Task.ends_lift, Effect.ends_log,
        Effect.ends_send]
      have resent {fault? : Option TransportFault} : Journal.Clean
          (journal ++ [.logged (.retrying key p.command left)] ++
            [.sent key.eid p.message fault?]) :=
        (clean.log (.retrying key p.command left)).sent
      cases link key.eid _ with
      | none => exact resent
      | some fault => exact resent.log _

/-- Each request that expires is accounted for when its turn comes. -/
theorem clean_expireAll {keys : List RequestKey} (accounts : c.Accounts others)
    (clean : journal.Clean) :
    Task.Ends (expireAll keys) c link journal fun _ _ journal' => journal'.Clean := by
  induction keys generalizing c journal with
  | nil => exact clean
  | cons key rest ih =>
    simp only [expireAll, Task.ends_bind]
    refine (ends_expire.and (accounts.clean_expire clean)).mono ?_
    rintro _ c₁ _ ⟨expiry, clean⟩
    exact ih (accounts.expiry expiry) clean

theorem clean_update {now : Nat} (accounts : c.Accounts others) (clean : journal.Clean) :
    Act.Ends (update now) c link journal fun _ _ journal' => journal'.Clean := by
  simp only [update, Act.ends_bind, Act.ends_get]
  split
  next => exact clean.log _
  next =>
    simp only [Act.ends_bind, Act.ends_modify, Act.ends_get, Act.ends_ofTask]
    exact accounts.ticked.clean_expireAll clean

end Accounts

end Correlator

end TerminusMonitor
