import Mathlib.Data.List.Nodup
import TerminusMonitor.Inventory.Basic
import TerminusMonitor.Proofs.Table

/-!
Records and update managers as they are read off the entries of an inventory.

Entries stand in the order in which they were made, and each manager has a number beside it.
Sorted by that number the managers stand in the order of their registration, whatever was
removed, made anew or refused in between.

* `get?_records`, `mem_managers`: what is read off an inventory is in its entries;
* `managersOf_eq`: the managers of some components are those of all that are theirs;
* `managers_withRecord`, `managers_without`, `managers_withManager`, `managers_withChanged`:
  what each change of the entries does to the order.
-/

namespace TerminusMonitor

/-! ### Lists in which each key occurs once -/

section Keys

variable {κ ν : Type} [DecidableEq κ] {l : List (κ × ν)} {k : κ} {v : ν}

theorem find?_key_eq_some_iff (once : (l.map (·.1)).Nodup) {e : κ × ν} :
    l.find? (·.1 == k) = some e ↔ e ∈ l ∧ e.1 = k := by
  constructor
  · intro found
    exact ⟨List.mem_of_find?_eq_some found, by simpa using List.find?_some found⟩
  · rintro ⟨mem, rfl⟩
    cases hit : l.find? (·.1 == e.1) with
    | none => simpa using List.find?_eq_none.mp hit e mem
    | some e' =>
      have key : e'.1 = e.1 := by simpa using List.find?_some hit
      rw [List.inj_on_of_nodup_map once (List.mem_of_find?_eq_some hit) mem key]

namespace Table

variable [Ranked κ]

private theorem get?_foldl_insert (t : Table κ ν) (once : (l.map (·.1)).Nodup) :
    (l.foldl (fun t e => t.insert e.1 e.2) t).get? k = some v ↔
      (k, v) ∈ l ∨ k ∉ l.map (·.1) ∧ t.get? k = some v := by
  induction l generalizing t with
  | nil => simp
  | cons e rest ih =>
    obtain ⟨k', v'⟩ := e
    obtain ⟨notMem, onceRest⟩ := List.nodup_cons.mp once
    rw [List.foldl_cons, ih _ onceRest, get?_insert]
    by_cases here : k = k'
    · subst here
      have absent : (k, v) ∉ rest := fun mem => notMem (List.mem_map.mpr ⟨(k, v), mem, rfl⟩)
      simp [absent, notMem, eq_comm]
    · simp [here]

/-- The table of a list has its entries, if each key occurs once. -/
theorem get?_ofList (once : (l.map (·.1)).Nodup) :
    (ofList l).get? k = some v ↔ (k, v) ∈ l := by
  rw [ofList, get?_foldl_insert ∅ once, get?_empty]
  simp

theorem entries_ofList_perm (once : (l.map (·.1)).Nodup) : (ofList l).entries.Perm l := by
  refine (List.perm_ext_iff_of_nodup (nodup_entries _) (List.Nodup.of_map _ once)).mpr ?_
  rintro ⟨k, v⟩
  rw [mem_entries_iff, get?_ofList once]

end Table

end Keys

namespace Inventory

variable {μ : Type} {i : Inventory μ} {component : Component} {which : Component → Bool}

/-! ### Entries -/

theorem nodup_components (i : Inventory μ) : (i.entries.map (·.1)).Nodup :=
  List.pairwise_map.mpr (i.apart.imp And.left)

theorem find?_eq_some_iff {entry : Entry μ} :
    i.find? component = some entry ↔ (component, entry) ∈ i.entries := by
  rw [find?, Option.map_eq_some_iff]
  simp only [find?_key_eq_some_iff (nodup_components i)]
  constructor
  · rintro ⟨e, ⟨mem, rfl⟩, rfl⟩
    exact mem
  · exact fun mem => ⟨(component, entry), ⟨mem, rfl⟩, rfl⟩

/-- The entry of a component that has one, among the others. -/
theorem entries_split {entry : Entry μ} (found : i.find? component = some entry) :
    ∃ before after, i.entries = before ++ (component, entry) :: after ∧
      (∀ e ∈ before, e.1 ≠ component) ∧ ∀ e ∈ after, e.1 ≠ component := by
  obtain ⟨before, after, split⟩ := List.append_of_mem (find?_eq_some_iff.mp found)
  have once := nodup_components i
  rw [split, List.map_append, List.map_cons, List.nodup_middle, List.nodup_cons,
    List.mem_append, not_or] at once
  refine ⟨before, after, split, ?_, ?_⟩
  · exact fun e mem eq => once.1.1 (List.mem_map.mpr ⟨e, mem, eq⟩)
  · exact fun e mem eq => once.1.2 (List.mem_map.mpr ⟨e, mem, eq⟩)

/-! ### Records -/

theorem nodup_records (i : Inventory μ) :
    ((i.entries.map fun e => (e.1, e.2.firmware)).map (·.1)).Nodup := by
  simpa [List.map_map, Function.comp_def] using nodup_components i

theorem get?_records {firmware : Firmware} :
    i.records.get? component = some firmware ↔
      ∃ entry, (component, entry) ∈ i.entries ∧ entry.firmware = firmware := by
  rw [records, Table.get?_ofList (nodup_records i)]
  simp

theorem contains_records : i.records.contains component = (i.find? component).isSome := by
  rw [Bool.eq_iff_iff, Table.contains_iff, Option.isSome_iff_exists]
  simp only [get?_records, find?_eq_some_iff]
  exact ⟨fun ⟨_, entry, mem, _⟩ => ⟨entry, mem⟩, fun ⟨entry, mem⟩ => ⟨_, entry, mem, rfl⟩⟩

/-- As many records match as entries do. -/
theorem countP_records (i : Inventory μ) (which : Component → Bool) :
    i.records.keys.countP which = i.entries.countP fun e => which e.1 := by
  rw [Table.keys, List.countP_map, records,
    (Table.entries_ofList_perm (nodup_records i)).countP_eq, List.countP_map]
  rfl

theorem records_edit {f : Entry μ → Entry μ}
    {same : ∀ e, (f e).manager?.isSome = e.manager?.isSome ∧ (f e).place = e.place}
    (firmware : ∀ e, (f e).firmware = e.firmware) :
    (i.edit component f same).records = i.records := by
  unfold records edit
  rw [List.map_map]
  congr 1
  refine List.map_congr_left fun e _ => ?_
  dsimp only [Function.comp_apply]
  split
  · rw [firmware]
  · rfl

theorem mem_edit {f : Entry μ → Entry μ}
    {same : ∀ e, (f e).manager?.isSome = e.manager?.isSome ∧ (f e).place = e.place}
    {c : Component} {entry' : Entry μ} :
    (c, entry') ∈ (i.edit component f same).entries ↔
      ∃ entry, (c, entry) ∈ i.entries ∧ entry' = if c = component then f entry else entry := by
  simp only [edit, List.mem_map, Prod.exists]
  constructor
  · rintro ⟨c', entry, mem, eq⟩
    split at eq
    next here =>
      cases eq
      exact ⟨entry, mem, (if_pos here).symm⟩
    next there =>
      cases eq
      exact ⟨entry', mem, (if_neg there).symm⟩
  · rintro ⟨entry, mem, rfl⟩
    exact ⟨c, entry, mem, by split <;> rfl⟩

theorem records_withRecord {firmware : Firmware} :
    (i.withRecord component firmware).records = i.records.insert component firmware := by
  refine Table.ext_get? fun c => Option.ext fun f => ?_
  rw [get?_records, Table.get?_insert]
  unfold withRecord
  split
  next known =>
    obtain ⟨e, listed, rfl⟩ : ∃ e ∈ i.entries, e.1 = component := by simpa using known
    simp only [mem_edit]
    split
    next here =>
      subst here
      constructor
      · rintro ⟨_, ⟨entry, _, rfl⟩, rfl⟩
        rfl
      · rintro ⟨⟩
        exact ⟨_, ⟨e.2, listed, rfl⟩, rfl⟩
    next =>
      rw [get?_records]
      exact ⟨fun ⟨_, ⟨entry, mem, eq⟩, firmware⟩ => ⟨entry, mem, eq ▸ firmware⟩,
        fun ⟨entry, mem, firmware⟩ => ⟨_, ⟨entry, mem, rfl⟩, firmware⟩⟩
  next unknown =>
    have absent : ∀ entry, (component, entry) ∉ i.entries := by simpa using unknown
    simp only [append, List.mem_append, List.mem_singleton, Prod.mk.injEq]
    split
    next here =>
      subst here
      constructor
      · rintro ⟨entry, mem | ⟨_, rfl⟩, rfl⟩
        · exact absurd mem (absent entry)
        · rfl
      · rintro ⟨⟩
        exact ⟨_, .inr ⟨rfl, rfl⟩, rfl⟩
    next there => simp [get?_records, there]

theorem records_without : (i.without which).records = i.records.filter fun c _ => !which c := by
  refine Table.ext_get? fun c => Option.ext fun f => ?_
  rw [get?_records, Table.get?_filter_eq_some_iff, get?_records]
  simp only [without, List.mem_filter]
  constructor
  · rintro ⟨entry, ⟨mem, kept⟩, firmware⟩
    exact ⟨⟨entry, mem, firmware⟩, kept⟩
  · rintro ⟨⟨entry, mem, firmware⟩, kept⟩
    exact ⟨entry, ⟨mem, kept⟩, firmware⟩

theorem records_withManager {manager : μ} :
    (i.withManager component manager).records = i.records := by
  unfold records withManager
  rw [List.map_map]
  congr 1
  refine List.map_congr_left fun e _ => ?_
  dsimp only [Function.comp_apply]
  split <;> rfl

theorem records_withChanged {manager : μ} :
    (i.withChanged component manager).records = i.records :=
  records_edit fun _ => rfl

/-! ### Update managers -/

/-- The update managers with their places and components, in the order of the entries. -/
def placed (i : Inventory μ) : List (Nat × Component × μ) := i.entries.filterMap Entry.placed?

theorem mem_placed {place : Nat} {manager : μ} :
    (place, component, manager) ∈ i.placed ↔
      ∃ entry, (component, entry) ∈ i.entries ∧ entry.manager? = some manager ∧
        entry.place = place := by
  simp only [placed, List.mem_filterMap, Entry.placed?, Option.map_eq_some_iff, Prod.mk.injEq,
    Prod.exists]
  constructor
  · rintro ⟨_, entry, mem, _, found, rfl, rfl, rfl⟩
    exact ⟨entry, mem, found, rfl⟩
  · rintro ⟨entry, mem, found, rfl⟩
    exact ⟨component, entry, mem, manager, found, rfl, rfl, rfl⟩

theorem places_apart (i : Inventory μ) :
    i.placed.Pairwise fun a b => a.1 ≠ b.1 ∧ a.2.1 ≠ b.2.1 := by
  refine i.apart.filterMap _ fun a b h x hx y hy => ?_
  obtain ⟨m, managerA, rfl⟩ := Option.map_eq_some_iff.mp hx
  obtain ⟨m', managerB, rfl⟩ := Option.map_eq_some_iff.mp hy
  exact ⟨h.2 (by simp [managerA]) (by simp [managerB]), h.1⟩

private theorem mergeSort_ordered (l : List (Nat × Component × μ)) :
    (l.mergeSort fun a b => a.1 ≤ b.1).Pairwise fun a b => a.1 ≤ b.1 := by
  refine (List.pairwise_mergeSort ?_ ?_ l).imp of_decide_eq_true
  · intro a b c ab bc
    exact decide_eq_true (Nat.le_trans (of_decide_eq_true ab) (of_decide_eq_true bc))
  · intro a b
    simpa using Nat.le_total a.1 b.1

/-- Sorting makes the same of a list in whatever order, if no two places are the same. -/
theorem mergeSort_eq {l sorted : List (Nat × Component × μ)}
    (rising : sorted.Pairwise fun a b => a.1 < b.1) (perm : l.Perm sorted) :
    (l.mergeSort fun a b => a.1 ≤ b.1) = sorted := by
  have places : (sorted.map (·.1)).Nodup := List.pairwise_map.mpr (rising.imp Nat.ne_of_lt)
  have same : (l.mergeSort fun a b => a.1 ≤ b.1).Perm sorted :=
    (List.mergeSort_perm _ _).trans perm
  refine List.Perm.eq_of_pairwise (fun a b memA memB ab ba => ?_) (mergeSort_ordered l)
    (rising.imp Nat.le_of_lt) same
  exact List.inj_on_of_nodup_map places (same.mem_iff.mp memA) memB (Nat.le_antisymm ab ba)

/-- The update managers with their places and components, by rising place. -/
def ranked (i : Inventory μ) : List (Nat × Component × μ) :=
  i.placed.mergeSort fun a b => a.1 ≤ b.1

theorem ranked_perm (i : Inventory μ) : i.ranked.Perm i.placed := List.mergeSort_perm _ _

theorem ranked_rising (i : Inventory μ) : i.ranked.Pairwise fun a b => a.1 < b.1 := by
  have apart : i.ranked.Pairwise fun a b => a.1 ≠ b.1 ∧ a.2.1 ≠ b.2.1 :=
    (ranked_perm i).symm.pairwise (places_apart i) fun h => ⟨h.1.symm, h.2.symm⟩
  exact ((mergeSort_ordered i.placed).and apart).imp fun h => Nat.lt_of_le_of_ne h.1 h.2.1

/-- The order of the managers is that of any list of them by rising places. -/
theorem managers_eq {sorted : List (Nat × Component × μ)}
    (rising : sorted.Pairwise fun a b => a.1 < b.1) (perm : i.placed.Perm sorted) :
    i.managers = sorted.map (·.2) := by
  rw [managers, managersOf, List.filter_true, ← placed, mergeSort_eq rising perm]

theorem managers_eq_ranked (i : Inventory μ) : i.managers = i.ranked.map (·.2) :=
  managers_eq (ranked_rising i) (ranked_perm i).symm

/-- No component has two managers. -/
theorem nodup_managers (i : Inventory μ) : (i.managers.map (·.1)).Nodup := by
  rw [managers_eq_ranked, List.map_map]
  exact List.pairwise_map.mpr ((ranked_perm i).symm.pairwise (places_apart i)
    (fun h => ⟨h.1.symm, h.2.symm⟩) |>.imp And.right)

theorem mem_managers {manager : μ} :
    (component, manager) ∈ i.managers ↔
      ∃ entry, (component, entry) ∈ i.entries ∧ entry.manager? = some manager := by
  rw [managers_eq_ranked]
  constructor
  · intro mem
    obtain ⟨⟨place, m⟩, mem, rfl⟩ := List.mem_map.mp mem
    obtain ⟨entry, listed, managed, _⟩ := mem_placed.mp ((ranked_perm i).mem_iff.mp mem)
    exact ⟨entry, listed, managed⟩
  · rintro ⟨entry, listed, managed⟩
    have mem : (entry.place, component, manager) ∈ i.placed :=
      mem_placed.mpr ⟨entry, listed, managed, rfl⟩
    exact List.mem_map.mpr ⟨_, (ranked_perm i).mem_iff.mpr mem, rfl⟩

/-- Some components have those of all managers that are theirs, in the same order. -/
theorem managersOf_eq : i.managersOf which = i.managers.filter (which ·.1) := by
  have filtered : (i.entries.filter fun e => which e.1).filterMap Entry.placed? =
      i.placed.filter fun p => which p.2.1 := by
    rw [placed, List.filter_filterMap, List.filterMap_filter]
    refine List.filterMap_congr fun e _ => ?_
    unfold Entry.placed?
    cases e.2.manager? <;> simp [Option.filter]
  rw [managersOf, filtered, managers_eq_ranked, List.filter_map,
    mergeSort_eq ((ranked_rising i).filter _) ((ranked_perm i).symm.filter _)]
  rfl

theorem mem_components_managers {entry : Entry μ} (found : i.find? component = some entry) :
    component ∈ i.managers.map (·.1) ↔ entry.manager?.isSome = true := by
  rw [List.mem_map, Option.isSome_iff_exists]
  constructor
  · rintro ⟨⟨c, manager⟩, mem, rfl⟩
    obtain ⟨entry', listed, managed⟩ := mem_managers.mp mem
    cases found.symm.trans (find?_eq_some_iff.mpr listed)
    exact ⟨manager, managed⟩
  · rintro ⟨manager, managed⟩
    exact ⟨_, mem_managers.mpr ⟨entry, find?_eq_some_iff.mp found, managed⟩, rfl⟩

/-! ### What each change does to the order of the managers -/

theorem managers_withRecord {firmware : Firmware} :
    (i.withRecord component firmware).managers = i.managers := by
  have same : (i.withRecord component firmware).placed = i.placed := by
    unfold withRecord
    split
    next =>
      rw [placed, edit, List.filterMap_map]
      refine List.filterMap_congr fun e _ => ?_
      dsimp only [Function.comp_apply, Entry.placed?]
      split <;> rfl
    next => simp [placed, append, Entry.placed?]
  exact (managers_eq (ranked_rising i) (same ▸ (ranked_perm i).symm)).trans
    (managers_eq_ranked i).symm

theorem managers_without :
    (i.without which).managers = i.managers.filter fun m => !which m.1 := by
  have kept : i.managersOf (fun c => !which c) = i.managers.filter fun m => !which m.1 :=
    managersOf_eq
  rw [← kept, managers, managersOf, managersOf, without, List.filter_true]

/-- A component gets its first manager behind all others. -/
theorem managers_withManager {entry : Entry μ} {manager : μ}
    (found : i.find? component = some entry) (none : entry.manager? = none) :
    (i.withManager component manager).managers = i.managers ++ [(component, manager)] := by
  obtain ⟨before, after, entries, notBefore, notAfter⟩ := entries_split found
  have others {l : List (Component × Entry μ)} (others : ∀ e ∈ l, e.1 ≠ component) :
      l.map (fun e => if e.1 = component then
        (e.1, { e.2 with manager? := some manager, place := i.nextPlace }) else e) = l := by
    refine (List.map_congr_left fun e mem => ?_).trans (List.map_id l)
    exact if_neg (others e mem)
  have last : (i.withManager component manager).placed.Perm
      (i.placed ++ [(i.nextPlace, component, manager)]) := by
    simp only [placed, withManager, entries, List.map_append, List.map_cons, others notBefore,
      others notAfter, List.filterMap_append, List.filterMap_cons, if_true, Entry.placed?, none,
      Option.map_some, Option.map_none]
    rw [List.append_assoc]
    exact (List.perm_append_singleton _ _).symm.append_left _
  have below : ∀ p ∈ i.ranked, p.1 < i.nextPlace := by
    rintro ⟨place, c, m⟩ mem
    obtain ⟨e, listed, managed, rfl⟩ := mem_placed.mp ((ranked_perm i).mem_iff.mp mem)
    exact i.below _ listed (by simp [managed])
  have rising : (i.ranked ++ [(i.nextPlace, component, manager)]).Pairwise
      fun a b => a.1 < b.1 := by
    refine List.pairwise_append.mpr ⟨ranked_rising i, List.pairwise_singleton _ _, ?_⟩
    intro a mem b last
    obtain rfl := List.mem_singleton.mp last
    exact below a mem
  rw [managers_eq rising (last.trans ((ranked_perm i).symm.append_right _)), List.map_append,
    managers_eq_ranked]
  rfl

/-- A placed manager, for which another may stand in. -/
def standIn (component : Component) (manager : μ) (p : Nat × Component × μ) :
    Nat × Component × μ :=
  if p.2.1 = component then (p.1, p.2.1, manager) else p

theorem standIn_place {manager : μ} (p : Nat × Component × μ) :
    (standIn component manager p).1 = p.1 := by
  unfold standIn
  split <;> rfl

/-- A manager that changes keeps its place. -/
theorem managers_withChanged {manager : μ} :
    (i.withChanged component manager).managers =
      i.managers.map fun m => if m.1 = component then (m.1, manager) else m := by
  have changed : (i.withChanged component manager).placed =
      i.placed.map (standIn component manager) := by
    rw [placed, placed, withChanged, edit, List.filterMap_map, List.map_filterMap]
    refine List.filterMap_congr fun e _ => ?_
    dsimp only [Function.comp_apply, Entry.placed?]
    split
    next here => cases e.2.manager? <;> simp [standIn, here]
    next there => cases e.2.manager? <;> simp [standIn, there]
  have rising : (i.ranked.map (standIn component manager)).Pairwise fun a b => a.1 < b.1 := by
    refine List.pairwise_map.mpr ((ranked_rising i).imp fun {a b} lt => ?_)
    rwa [standIn_place, standIn_place]
  rw [managers_eq rising (changed ▸ (ranked_perm i).symm.map _), managers_eq_ranked,
    List.map_map, List.map_map]
  refine List.map_congr_left fun p _ => ?_
  dsimp only [Function.comp_apply, standIn]
  split <;> rfl

end Inventory

end TerminusMonitor
