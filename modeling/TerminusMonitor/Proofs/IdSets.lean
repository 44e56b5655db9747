import TerminusMonitor.Proofs.Pools
import Mathlib.Data.Fintype.Card

/-!
Pools of instance IDs as sets.

A pool stands for the set of the IDs whose bits its mask has. What taking, freeing and
dropping do to such sets is `IdSets.Step`, which knows of no bits: the least ID that is not
in the set is taken, and a call fails only if the set is full, or lacks the ID to free.

* `IdMask.lowestFree?_eq_ctz`, `IdMask.count_eq_cpop`: the lowest free ID is the number of
  zeros that trail in the complement of the mask, and as many IDs are in use as it has ones;
* `PoolCall.ends_act`: a call of the pools, whatever they hold, is a step of the sets;
* `pools_refine_sets`: a run of calls is a run of the sets.
-/

namespace TerminusMonitor

/-! ### Masks -/

namespace IdMask

variable {mask : IdMask} {iid : InstanceId}

theorem holds_not : (~~~mask).holds iid = !mask.holds iid := by
  simp [holds]

/-- The lowest one of the complement is the least ID that is free. -/
theorem isLeast_ctz (nonzero : ~~~mask ≠ 0) :
    ∃ iid, IsLeast {iid | mask.holds iid = false} iid ∧ iid.val = (~~~mask).ctz.toNat := by
  have below : (~~~mask).ctz.toNat < 32 := by
    simpa [BitVec.lt_def] using BitVec.ctz_lt_iff_ne_zero.mpr nonzero
  refine ⟨⟨_, below⟩, ⟨?_, fun other free => ?_⟩, rfl⟩
  · have one : (~~~mask).holds ⟨_, below⟩ = true := BitVec.getLsbD_true_ctz_of_ne_zero nonzero
    simpa [holds_not] using one
  · by_contra less
    have zero : (~~~mask).holds other = false :=
      BitVec.getLsbD_false_of_lt_ctz (Nat.lt_of_not_le less)
    simp_all [holds_not]

/-- There is no free ID if the complement is zero, and else the lowest one of the complement
is the lowest that is free. -/
theorem lowestFree?_eq_ctz : mask.lowestFree?.map Fin.val =
    if ~~~mask = 0 then none else some (~~~mask).ctz.toNat := by
  split
  next zero =>
    have full : mask.lowestFree? = none := by
      refine lowestFree?_eq_none_iff.mpr fun iid => ?_
      have none : (~~~mask).holds iid = false := by simp [zero, holds]
      simpa [holds_not] using none
    rw [full, Option.map_none]
  next nonzero =>
    obtain ⟨iid, least, place⟩ := isLeast_ctz nonzero
    rw [lowestFree?_eq_some_iff.mpr least, Option.map_some, place]

theorem countP_getLsbD {w : Nat} (x : BitVec w) (n : Nat) :
    (List.finRange n).countP (fun i => x.getLsbD i.val) = x.cpopNatRec n 0 := by
  induction n with
  | zero => simp
  | succ n ih =>
    rw [BitVec.cpopNatRec_succ, BitVec.cpopNatRec_eq, ← ih, List.finRange_succ_last,
      List.countP_append, List.countP_map]
    cases bit : x.getLsbD n <;> simp [bit, Function.comp_def]

/-- As many IDs are in use as the mask has ones. -/
theorem count_eq_cpop : mask.count = mask.cpop.toNat := by
  rw [BitVec.toNat_cpop]
  exact countP_getLsbD mask 32

/-- The IDs in use. -/
def ids (mask : IdMask) : Finset InstanceId := {iid | mask.holds iid}

@[simp] theorem mem_ids : iid ∈ mask.ids ↔ mask.holds iid = true := by simp [ids]

theorem ids_zero : ids 0 = ∅ := by
  ext iid
  simp [holds]

theorem ids_take : (mask.take iid).ids = insert iid mask.ids := by
  ext other
  simp [holds_take]

theorem ids_free : (mask.free iid).ids = mask.ids.erase iid := by
  ext other
  simp [holds_free]

theorem card_ids : mask.ids.card = mask.count := by
  change ((Multiset.ofList (List.finRange 32)).filter fun iid => mask.holds iid).card = _
  simp [count, poolSize, List.countP_eq_length_filter]

end IdMask

/-! ### Sets of IDs -/

/-- A call that takes an ID, frees one or drops a pool. -/
inductive PoolCall where
  | take (eid : Eid)
  | free (eid : Eid) (iid : InstanceId)
  | drop (eid : Eid)

namespace PoolCall

/-- The endpoint whose pool is called. -/
def eid : PoolCall → Eid
  | take eid => eid
  | free eid _ => eid
  | drop eid => eid

/-- Makes the call, which answers with the ID that was taken. -/
def act : PoolCall → Act Pools (Option InstanceId)
  | take eid => some <$> Pools.take eid
  | free eid iid => (fun _ => none) <$> Pools.free eid iid
  | drop eid => .ofTask ((fun _ => none) <$> Pools.drop eid)

/-- Makes calls one after the other, each over a link of its own, and lists them with what
they answered. -/
def run : List (Link × PoolCall) → Pools →
    List (PoolCall × Except Fault (Option InstanceId)) × Pools
  | [], p => ([], p)
  | (link, call) :: calls, p =>
    let (answered, p') := run calls (call.act.state p link [])
    ((call, call.act.result p link []) :: answered, p')

end PoolCall

/-- The IDs of each endpoint that are in use. -/
abbrev IdSets := Eid → Finset InstanceId

namespace IdSets

/-- A call answers, and changes the set of its endpoint or none. -/
inductive Step (s : IdSets) : PoolCall → Except Fault (Option InstanceId) → IdSets → Prop where
  | taken {eid : Eid} {iid : InstanceId} (least : IsLeast {iid | iid ∉ s eid} iid) :
      Step s (.take eid) (.ok (some iid)) (Function.update s eid (insert iid (s eid)))
  | exhausted {eid : Eid} (full : s eid = Finset.univ) :
      Step s (.take eid) (.error .exhausted) s
  | freed {eid : Eid} {iid : InstanceId} (used : iid ∈ s eid) :
      Step s (.free eid iid) (.ok none) (Function.update s eid ((s eid).erase iid))
  | unused {eid : Eid} {iid : InstanceId} (unused : iid ∉ s eid) :
      Step s (.free eid iid) (.error (.state .unusedId)) s
  | dropped {eid : Eid} : Step s (.drop eid) (.ok none) (Function.update s eid ∅)

/-- Calls answer one after the other. -/
inductive Run : IdSets → List (PoolCall × Except Fault (Option InstanceId)) → IdSets → Prop where
  | nil {s : IdSets} : Run s [] s
  | cons {s s' s'' : IdSets} {call : PoolCall} {answer : Except Fault (Option InstanceId)}
      {rest : List (PoolCall × Except Fault (Option InstanceId))} (step : s.Step call answer s')
      (run : Run s' rest s'') : Run s ((call, answer) :: rest) s''

variable {s s' : IdSets} {call : PoolCall} {answer : Except Fault (Option InstanceId)}

/-- A call that fails changes no set. -/
theorem Step.failed {fault : Fault} (step : s.Step call (.error fault) s') : s' = s := by
  cases step <;> rfl

/-- A call changes no set but that of its endpoint. -/
theorem Step.elsewhere {eid : Eid} (step : s.Step call answer s') (other : eid ≠ call.eid) :
    s' eid = s eid := by
  cases step with
  | exhausted | unused => rfl
  | taken | freed | dropped => exact Function.update_of_ne other ..

/-- Taking an ID fails if and only if the set is full, and only for want of an ID. -/
theorem Step.exhausted_iff {eid : Eid} (step : s.Step (.take eid) answer s') :
    answer = .error .exhausted ↔ s eid = Finset.univ := by
  cases step with
  | exhausted full => exact iff_of_true rfl full
  | taken least =>
    refine iff_of_false nofun fun full => least.1 ?_
    exact full ▸ Finset.mem_univ _

end IdSets

/-! ### Pools as sets of IDs -/

namespace Pools

variable {p : Pools} {eid : Eid} {iid : InstanceId}

/-- The IDs of each endpoint that are in use. -/
def sets (p : Pools) : IdSets := fun eid => (p.mask eid).ids

theorem mem_sets : iid ∈ p.sets eid ↔ p.holds eid iid = true := IdMask.mem_ids

theorem sets_empty : sets {} = fun _ => ∅ := by
  funext eid
  simp only [sets, Pools.mask, Table.get?_empty]
  exact IdMask.ids_zero

theorem sets_set {mask : IdMask} :
    (p.set eid mask).sets = Function.update p.sets eid mask.ids := by
  funext eid'
  simp only [sets, mask_set, Function.update_apply]
  split <;> rfl

theorem sets_dropped : (p.dropped eid).sets = Function.update p.sets eid ∅ := by
  funext eid'
  ext iid
  have held := @holds_dropped p ⟨eid', iid⟩ eid
  simp only [mem_sets, held, Function.update_apply]
  split
  next same => simp [same]
  next other => simp [other, mem_sets]

theorem sets_released (used : p.holds eid iid = true) :
    (p.released eid iid).sets = Function.update p.sets eid ((p.sets eid).erase iid) := by
  simp only [released, if_pos used]
  exact sets_set.trans (congrArg _ IdMask.ids_free)

/-- Pools show a set for each endpoint: they tell its members and its size. -/
def Shows (p : Pools) (s : IdSets) : Prop :=
  ∀ eid, p.inUse eid = (s eid).card ∧ ∀ iid, p.holds eid iid = decide (iid ∈ s eid)

theorem shows_sets : p.Shows p.sets := fun eid =>
  ⟨IdMask.card_ids.symm, fun iid => by simp [mem_sets]⟩

end Pools

/-- A call of any pools is a step of their sets. -/
theorem PoolCall.ends_act {call : PoolCall} {p : Pools} {link : Link} {journal : Journal} :
    Act.Ends call.act p link journal fun answer p' _ => p.sets.Step call answer p'.sets := by
  cases call with
  | take eid =>
    simp only [act, Act.ends_map, Pools.ends_take]
    cases free : (p.mask eid).lowestFree? with
    | none =>
      refine .exhausted (Finset.eq_univ_of_forall fun iid => ?_)
      exact IdMask.mem_ids.mpr (IdMask.lowestFree?_eq_none_iff.mp free iid)
    | some iid =>
      have least : IsLeast {iid | iid ∉ p.sets eid} iid := by
        simpa [Pools.sets] using IdMask.isLeast_of_lowestFree? free
      simp only [Pools.taken, Pools.sets_set, IdMask.ids_take]
      exact .taken least
  | free eid iid =>
    simp only [act, Act.ends_map, Pools.ends_free]
    split
    next used =>
      rw [Pools.sets_released used]
      exact .freed (Pools.mem_sets.mpr used)
    next unused => exact .unused (by simpa [Pools.mem_sets] using unused)
  | drop eid =>
    simp only [act, Act.ends_ofTask, Task.ends_map]
    refine Pools.ends_drop.mono ?_
    rintro _ p' _ rfl
    rw [Pools.sets_dropped]
    exact .dropped

/-- A run of calls of any pools is a run of their sets. -/
theorem PoolCall.run_sets (calls : List (Link × PoolCall)) (p : Pools) :
    p.sets.Run (run calls p).1 (run calls p).2.sets := by
  induction calls generalizing p with
  | nil => exact .nil
  | cons call rest ih => exact .cons (Act.ends_iff.mp ends_act) (ih _)

/-- Pools do what sets of IDs do, one for each endpoint and empty at first. Whatever calls are
made, each takes the least ID that is not in the set of its endpoint, finds that set full,
removes an ID from it, lacks that ID there, or empties the set; and the pools tell the members
and the sizes of the sets that come of it. So does any further call: it finds no ID to take
just if the set is full, it leaves all sets as they were if it fails, and in any case those
of other endpoints. -/
theorem pools_refine_sets (calls : List (Link × PoolCall)) :
    let (answered, p) := PoolCall.run calls {}
    ∃ s, IdSets.Run (fun _ => ∅) answered s ∧ p.Shows s ∧
      ∀ link (call : PoolCall), let answer := call.act.result p link []
        ∃ s', s.Step call answer s' ∧ (call.act.state p link []).Shows s' ∧
          (∀ eid, call = .take eid → (answer = .error .exhausted ↔ s eid = Finset.univ)) ∧
          (∀ fault, answer = .error fault → s' = s) ∧
          ∀ eid ≠ call.eid, s' eid = s eid := by
  have run := PoolCall.run_sets calls {}
  rw [Pools.sets_empty] at run
  refine ⟨_, run, Pools.shows_sets, fun link call => ?_⟩
  have step : IdSets.Step (PoolCall.run calls {}).2.sets call
      (call.act.result (PoolCall.run calls {}).2 link [])
      (call.act.state (PoolCall.run calls {}).2 link []).sets :=
    Act.ends_iff.mp PoolCall.ends_act
  refine ⟨_, step, Pools.shows_sets, ?_, ?_, fun eid => step.elsewhere⟩
  · rintro eid rfl
    exact step.exhausted_iff
  · intro fault failed
    exact (failed ▸ step).failed

end TerminusMonitor
