import TerminusMonitor.Proofs.Enrolment
import TerminusMonitor.Proofs.Outcome

/-!
The inventory as its users see it.

A roster is a table of records and a list of update managers in the order of their
registration. Nothing is left in it of the entries of an inventory, their order or the
places of managers.

* `Roster.step`: what each operation does to a roster, what it answers, and who is offered a
  request by it;
* `Inventory.follows`: an operation of an inventory does the same to the roster of it;
* `Inventory.runs_as_roster`: so does every run.
-/

namespace TerminusMonitor

variable {μ : Type}

/-! ### Operations -/

/-- A call of an inventory. -/
inductive Inventory.Operation (μ : Type) where
  | create (component : Component) (firmware : Firmware)
  | erase (component : Component)
  | eraseIf (which : Component → Bool)
  | register (component : Component) (manager : μ)
  | setPrimary (manager : μ)
  | begin (component : Component)
  | finish (component : Component)
  | dispatch (eid : Eid) (request : Request)

/-- What an operation answers when it does not fail. -/
inductive Inventory.Answer where
  | done
  /-- Whether there was a record to erase. -/
  | existed (was : Bool)
  /-- How many records were erased. -/
  | erased (count : Nat)
  | response (r : Response)
deriving DecidableEq

/-- What is seen of an operation: its result, and who was offered a request, in turn. The
primary manager is that of no component. -/
structure Inventory.Seen where
  result : Except Fault Inventory.Answer := .ok .done
  offers : List (Option Component) := []

/-- Those who were offered a request, in turn. -/
def Journal.offers (journal : Journal) : List (Option Component) :=
  journal.filterMap fun
    | .offered component? => some component?
    | _ => none

theorem Journal.offers_offered {journal : Journal} {component? : Option Component} :
    Journal.offers (journal ++ [.offered component?]) = journal.offers ++ [component?] := by
  simp [offers]

theorem Journal.offers_logged {journal : Journal} {notice : Notice} :
    Journal.offers (journal ++ [.logged notice]) = journal.offers := by
  simp [offers]

/-- Whether an update manager claims a request. -/
def UpdateManager.claims [UpdateManager μ] (eid : Eid) (request : Request) (manager : μ) : Bool :=
  match (UpdateManager.offer manager eid request).1 with
  | .claimed _ => true
  | .notExpected _ => false

/-- An update manager after a request, which it may or may not have been offered. -/
def UpdateManager.after [UpdateManager μ] (eid : Eid) (request : Request) (offered : Bool)
    (manager : μ) : μ :=
  if offered then (UpdateManager.offer manager eid request).2 else manager

@[simp] theorem UpdateManager.after_false [UpdateManager μ] {eid : Eid} {request : Request} :
    UpdateManager.after eid request false = (id : μ → μ) := rfl

/-! ### Rosters -/

/-- Records of components, and update managers in the order of their registration. -/
structure Roster (μ : Type) where
  records : Table Component Firmware := ∅
  managers : List (Component × μ) := []
  primary? : Option μ := none
  updating? : Option Component := none

namespace Roster

/-- The roster without the records of some components, their managers, and the update of one
of them. -/
def without (r : Roster μ) (which : Component → Bool) : Roster μ :=
  { r with
    records := r.records.filter fun c _ => !which c
    managers := r.managers.filter fun m => !which m.1
    updating? := r.updating?.filter fun c => !which c }

/-- Those who may be offered a request that comes from an endpoint, in turn: the primary
manager, then the managers of the endpoint's components. -/
def line (r : Roster μ) (eid : Eid) : List (Option Component × μ) :=
  r.primary?.toList.map (none, ·) ++
    (r.managers.filter (·.1.eid == eid)).map fun m => (some m.1, m.2)

theorem line_none {r : Roster μ} {eid : Eid} (none : r.primary? = none) :
    r.line eid = (r.managers.filter (·.1.eid == eid)).map fun m => (some m.1, m.2) := by
  simp [line, none]

theorem line_some {r : Roster μ} {eid : Eid} {manager : μ} (primary : r.primary? = some manager) :
    r.line eid = (none, manager) ::
      (r.managers.filter (·.1.eid == eid)).map fun m => (some m.1, m.2) := by
  simp [line, primary]

variable [UpdateManager μ]

/-- Those of a line who are offered a request: all up to the first who claims it. -/
def asked {α : Type} (eid : Eid) (request : Request) (line : List (α × μ)) : List (α × μ) :=
  line.takeWhile (fun m => !UpdateManager.claims eid request m.2) ++
    (line.find? fun m => UpdateManager.claims eid request m.2).toList

/-- The response to a request that a line is offered: that of the first who claims it, or else
that of the last in the line. -/
def answer? {α : Type} (eid : Eid) (request : Request) (line : List (α × μ)) :
    Option Response :=
  let answerer? := (line.find? fun m => UpdateManager.claims eid request m.2).or line.getLast?
  answerer?.map fun m => (UpdateManager.offer m.2 eid request).1.response

/-- The roster after a request that was offered to some. The others are as they were. -/
def after (r : Roster μ) (eid : Eid) (request : Request) (offers : List (Option Component)) :
    Roster μ :=
  { r with
    primary? := r.primary?.map (UpdateManager.after eid request (none ∈ offers))
    managers := r.managers.map fun m =>
      (m.1, UpdateManager.after eid request (some m.1 ∈ offers) m.2) }

/-! The line is offered a request from its head on. -/

section Line

variable {α β : Type} {eid : Eid} {request : Request} {m : α × μ} {rest line : List (α × μ)}

theorem asked_cons : asked eid request (m :: rest) =
    m :: if UpdateManager.claims eid request m.2 then [] else asked eid request rest := by
  unfold asked
  cases claims : UpdateManager.claims eid request m.2 <;> simp [claims]

theorem answer?_cons : answer? eid request (m :: rest) =
    let response := (UpdateManager.offer m.2 eid request).1.response
    if UpdateManager.claims eid request m.2 then some response
    else (answer? eid request rest).or (some response) := by
  unfold answer?
  cases claims : UpdateManager.claims eid request m.2 with
  | true => simp [claims]
  | false =>
    cases found : rest.find? fun m => UpdateManager.claims eid request m.2 with
    | some m' => simp [claims, found]
    | none => cases last : rest.getLast? <;> simp [claims, found, last, List.getLast?_cons]

theorem asked_prefix : asked eid request line <+: line := by
  induction line with
  | nil => exact List.prefix_refl _
  | cons m rest ih =>
    rw [asked_cons, List.prefix_cons_inj]
    split
    · exact List.nil_prefix
    · exact ih

theorem asked_map (f : α → β) :
    asked eid request (line.map fun m => (f m.1, m.2)) =
      (asked eid request line).map fun m => (f m.1, m.2) := by
  induction line with
  | nil => rfl
  | cons m rest ih =>
    rw [List.map_cons, asked_cons, asked_cons, ih, List.map_cons]
    split <;> rfl

theorem answer?_map (f : α → β) :
    answer? eid request (line.map fun m => (f m.1, m.2)) = answer? eid request line := by
  induction line with
  | nil => rfl
  | cons m rest ih => rw [List.map_cons, answer?_cons, answer?_cons, ih]

end Line

/-! Those who are offered a request in two parts are offered it at once. -/

variable {r : Roster μ} {eid : Eid} {request : Request} {first second : List (Option Component)}

theorem after_nil : r.after eid request [] = r := by
  simp [after]

theorem after_after (apart : first.Disjoint second) :
    (r.after eid request first).after eid request second =
      r.after eid request (first ++ second) := by
  have twice (component? : Option Component) (manager : μ) :
      UpdateManager.after eid request (component? ∈ second)
          (UpdateManager.after eid request (component? ∈ first) manager) =
        UpdateManager.after eid request (component? ∈ first ++ second) manager := by
    by_cases inFirst : component? ∈ first
    · have notInSecond : component? ∉ second := fun mem => apart inFirst mem
      simp [UpdateManager.after, inFirst, notInSecond]
    · simp [UpdateManager.after, inFirst]
  simp [after, twice, Option.map_map, Function.comp_def]

/-- What is seen of an operation on a roster, and the roster after it. -/
def step (r : Roster μ) : Inventory.Operation μ → Inventory.Seen × Roster μ
  | .create component firmware =>
    ({}, { r with records := r.records.insert component firmware })
  | .erase component =>
    ({ result := .ok (.existed (r.records.contains component)) }, r.without (· == component))
  | .eraseIf which => ({ result := .ok (.erased (r.records.keys.countP which)) }, r.without which)
  | .register component manager =>
    if !r.records.contains component then ({ result := .error (.state .noRecord) }, r)
    else if r.managers.any (·.1 == component) then
      ({ result := .error (.state .secondManager) }, r)
    else ({}, { r with managers := r.managers ++ [(component, manager)] })
  | .setPrimary manager => ({}, { r with primary? := some manager })
  | .begin component =>
    match r.updating? with
    | some running => ({ result := .error (.updating running) }, r)
    | none => ({}, { r with updating? := some component })
  | .finish component =>
    if r.updating? = some component then ({}, { r with updating? := none })
    else ({ result := .error (.state .noUpdate) }, r)
  | .dispatch eid request =>
    let response :=
      (answer? eid request (r.line eid)).getD (request.reply CompletionCode.commandNotExpected)
    let offers := (asked eid request (r.line eid)).map (·.1)
    ({ result := .ok (.response response), offers }, r.after eid request offers)

/-- What is seen of operations on a roster, and the roster after them. -/
def run : List (Inventory.Operation μ) → Roster μ → List Inventory.Seen × Roster μ
  | [], r => ([], r)
  | op :: rest, r =>
    let (seen, r) := r.step op
    let (more, r) := run rest r
    (seen :: more, r)

end Roster

/-! ### Inventories -/

namespace Inventory

/-- The roster of an inventory. -/
def roster (i : Inventory μ) : Roster μ :=
  { records := i.records, managers := i.managers, primary? := i.primary?
    updating? := i.updating? }

variable {i : Inventory μ} {link : Link} {journal : Journal} {component : Component}
  {which : Component → Bool}

/-! ### Records -/

theorem roster_withRecord {firmware : Firmware} :
    (i.withRecord component firmware).roster =
      { i.roster with records := i.roster.records.insert component firmware } := by
  rw [roster, records_withRecord, managers_withRecord]
  unfold withRecord
  split <;> rfl

theorem roster_withManager {entry : Entry μ} {manager : μ}
    (found : i.find? component = some entry) (none : entry.manager? = none) :
    (i.withManager component manager).roster =
      { i.roster with managers := i.roster.managers ++ [(component, manager)] } := by
  rw [roster, records_withManager, managers_withManager found none]
  rfl

theorem roster_without :
    (i.without which).roster = { i.roster.without which with updating? := i.updating? } := by
  rw [roster, records_without, managers_without]
  rfl

theorem length_without :
    i.entries.length - (i.without which).entries.length = i.records.keys.countP which := by
  have parts : i.entries.length =
      (i.entries.countP fun e => which e.1) + i.entries.countP fun e => !which e.1 := by
    rw [i.entries.length_eq_countP_add_countP fun e => which e.1]
    simp
  rw [countP_records, without, ← List.countP_eq_length_filter, parts, Nat.add_sub_cancel]

/-- As many records are erased as match. -/
theorem ends_eraseIf :
    Task.Ends (eraseIf which) i link journal fun count i' journal' =>
      count = i.records.keys.countP which ∧ i'.roster = i.roster.without which ∧
        journal'.offers = journal.offers := by
  simp only [eraseIf, Task.ends_bind, Task.ends_get]
  cases abandoned : i.updating?.filter which with
  | none =>
    simp only [Task.ends_pure, Task.ends_bind, Task.ends_get, Task.ends_modify]
    refine ⟨length_without, ?_, trivial⟩
    have kept : i.updating?.filter (fun c => !which c) = i.updating? := by
      cases updating : i.updating? with
      | none => rfl
      | some running =>
        rw [updating] at abandoned
        simpa [Option.filter] using abandoned
    rw [roster_without]
    exact congrArg (fun u => { i.roster.without which with updating? := u }) kept.symm
  | some running =>
    simp only [Task.ends_bind, Task.ends_get, Task.ends_modify, Task.ends_lift, Effect.ends_log,
      Task.ends_pure]
    refine ⟨length_without, ?_, Journal.offers_logged⟩
    obtain ⟨updating, erased⟩ := Option.filter_eq_some_iff.mp abandoned
    have dropped : i.updating?.filter (fun c => !which c) = none := by simp [updating, erased]
    rw [roster_without]
    exact congrArg (fun u => { i.roster.without which with updating? := u }) dropped.symm

theorem ends_erase :
    Task.Ends (erase component) i link journal fun was i' journal' =>
      was = i.records.contains component ∧ i'.roster = i.roster.without (· == component) ∧
        journal'.offers = journal.offers := by
  simp only [erase, Task.ends_bind]
  refine ends_eraseIf.mono ?_
  rintro count i' journal' ⟨rfl, roster, offers⟩
  refine ⟨?_, roster, offers⟩
  change decide _ = _
  rw [Bool.eq_iff_iff, decide_eq_true_iff, List.countP_pos_iff, Table.contains_iff]
  simp [Table.mem_keys_iff]

/-! ### Requests -/

/-- Nobody is twice in a line. -/
theorem nodup_line (i : Inventory μ) (eid : Eid) : ((i.roster.line eid).map (·.1)).Nodup := by
  have once : ((i.managers.filter (·.1.eid == eid)).map (·.1)).Nodup :=
    (nodup_managers i).sublist (List.filter_sublist.map _)
  have components : (((i.roster.managers.filter (·.1.eid == eid)).map
      fun m => (some m.1, m.2)).map (·.1)).Nodup := by
    rw [List.map_map]
    exact List.pairwise_map.mpr
      ((List.pairwise_map.mp once).imp fun ne eq => ne (Option.some.inj eq))
  cases primary : i.roster.primary? with
  | none => rwa [Roster.line_none primary]
  | some manager =>
    rw [Roster.line_some primary, List.map_cons, List.nodup_cons]
    exact ⟨by simp, components⟩

variable [UpdateManager μ]

section Dispatch

variable {eid : Eid} {request : Request} {manager : μ}

theorem roster_withChanged (listed : (component, manager) ∈ i.managers) :
    (i.withChanged component (UpdateManager.offer manager eid request).2).roster =
      i.roster.after eid request [some component] := by
  have same : (i.withChanged component (UpdateManager.offer manager eid request).2).managers =
      (i.roster.after eid request [some component]).managers := by
    rw [managers_withChanged]
    refine List.map_congr_left fun m mem => ?_
    by_cases here : m.1 = component
    · obtain rfl : m = (component, manager) :=
        List.inj_on_of_nodup_map (nodup_managers i) mem listed here
      simp [UpdateManager.after]
    · simp [UpdateManager.after, here]
  rw [roster, same, records_withChanged]
  simp [Roster.after, roster, withChanged, edit]

/-- Update managers are offered a request from the first of a line on. -/
theorem ends_offerEach_line {ms : List (Component × μ)} {last? : Option Response}
    (once : (ms.map (·.1)).Nodup) (listed : ∀ m ∈ ms, m ∈ i.managers) :
    Task.Ends (offerEach eid request last? ms) i link journal fun answer i' journal' =>
      let offers := (Roster.asked eid request ms).map fun m => some m.1
      answer = (Roster.answer? eid request ms).or last? ∧
        i'.roster = i.roster.after eid request offers ∧
        journal'.offers = journal.offers ++ offers := by
  induction ms generalizing i last? journal with
  | nil => exact ⟨rfl, Roster.after_nil.symm, (List.append_nil _).symm⟩
  | cons m rest ih =>
    obtain ⟨component, manager⟩ := m
    obtain ⟨notInRest, onceRest⟩ := List.nodup_cons.mp once
    obtain ⟨here, listedRest⟩ := List.forall_mem_cons.mp listed
    have changed : (i.withChanged component (UpdateManager.offer manager eid request).2).roster =
        i.roster.after eid request [some component] := roster_withChanged here
    rw [offerEach, Roster.asked_cons, Roster.answer?_cons]
    simp only [Task.ends_bind, Task.ends_lift, Effect.ends_record, Task.ends_modify]
    cases handled : (UpdateManager.offer manager eid request).1 with
    | claimed response =>
      simp only [UpdateManager.claims, handled, if_true]
      exact ⟨rfl, changed, Journal.offers_offered⟩
    | notExpected response =>
      simp only [UpdateManager.claims, handled, Bool.false_eq_true, if_false]
      have still : ∀ m ∈ rest,
          m ∈ (i.withChanged component (UpdateManager.offer manager eid request).2).managers := by
        intro m mem
        rw [managers_withChanged]
        have apart : m.1 ≠ component := fun eq => notInRest (List.mem_map.mpr ⟨m, mem, eq⟩)
        exact List.mem_map.mpr ⟨m, listedRest m mem, if_neg apart⟩
      have apart : [some component].Disjoint
          ((Roster.asked eid request rest).map fun m => some m.1) := by
        rw [List.singleton_disjoint]
        intro mem
        obtain ⟨m, asked, eq⟩ := List.mem_map.mp mem
        have here := Roster.asked_prefix.subset asked
        exact notInRest (List.mem_map.mpr ⟨m, here, Option.some.inj eq⟩)
      refine (ih onceRest still).mono ?_
      rintro answer i' journal' ⟨rfl, roster, offers⟩
      refine ⟨?_, ?_, ?_⟩
      · simp [Handled.response]
      · rw [roster, changed, Roster.after_after apart]
        rfl
      · rw [offers, Journal.offers_offered, List.append_assoc]
        rfl

theorem ends_offerComponents_line {last? : Option Response} :
    Task.Ends (offerComponents eid request last?) i link journal fun response i' journal' =>
      let line := (i.managers.filter (·.1.eid == eid)).map fun m => (some m.1, m.2)
      let offers := (Roster.asked eid request line).map (·.1)
      response = ((Roster.answer? eid request line).or last?).getD
          (request.reply CompletionCode.commandNotExpected) ∧
        i'.roster = i.roster.after eid request offers ∧
        journal'.offers = journal.offers ++ offers := by
  simp only [offerComponents, Task.ends_bind, Task.ends_get, managersOf_eq, Roster.answer?_map,
    Roster.asked_map, List.map_map]
  have once : ((i.managers.filter (·.1.eid == eid)).map (·.1)).Nodup :=
    (nodup_managers i).sublist (List.filter_sublist.map _)
  refine (ends_offerEach_line once fun m mem => (List.mem_filter.mp mem).1).mono ?_
  rintro answer i' journal' ⟨rfl, roster, offers⟩
  split
  next response found =>
    rw [found]
    exact ⟨rfl, roster, offers⟩
  next none =>
    rw [none]
    exact ⟨rfl, roster, Journal.offers_logged.trans offers⟩

theorem ends_dispatch_line :
    Task.Ends (dispatch eid request) i link journal fun response i' journal' =>
      let line := i.roster.line eid
      let offers := (Roster.asked eid request line).map (·.1)
      response = (Roster.answer? eid request line).getD
          (request.reply CompletionCode.commandNotExpected) ∧
        i'.roster = i.roster.after eid request offers ∧
        journal'.offers = journal.offers ++ offers := by
  simp only [dispatch, Task.ends_bind, Task.ends_get]
  cases primary : i.primary? with
  | none =>
    rw [Roster.line_none (r := i.roster) primary]
    refine ends_offerComponents_line.mono ?_
    rintro response i' journal' ⟨rfl, roster, offers⟩
    exact ⟨by rw [Option.or_none]; rfl, roster, offers⟩
  | some manager =>
    have changed : roster { i with primary? := some (UpdateManager.offer manager eid request).2 } =
        i.roster.after eid request [none] := by
      simp [Roster.after, roster, primary, UpdateManager.after, managers, managersOf, records]
    rw [Roster.line_some (r := i.roster) primary, Roster.asked_cons, Roster.answer?_cons]
    simp only [Task.ends_bind, Task.ends_lift, Effect.ends_record, Task.ends_modify]
    cases handled : (UpdateManager.offer manager eid request).1 with
    | claimed response =>
      simp only [UpdateManager.claims, handled, if_true]
      exact ⟨rfl, changed, Journal.offers_offered⟩
    | notExpected response =>
      simp only [UpdateManager.claims, handled, Bool.false_eq_true, if_false]
      refine ends_offerComponents_line.mono ?_
      rintro _ i' journal' ⟨rfl, roster, offers⟩
      refine ⟨rfl, ?_, ?_⟩
      · rw [roster, changed, Roster.after_after]
        · rfl
        · simp [List.singleton_disjoint, Roster.asked_map]
      · rw [offers, Journal.offers_offered, List.append_assoc]
        rfl

end Dispatch

/-! ### Runs -/

/-- The call of an operation. -/
def Operation.act : Operation μ → Act (Inventory μ) Answer
  | create component firmware => do
    Act.ofTask (Inventory.create component firmware)
    return .done
  | erase component => return .existed (← Act.ofTask (Inventory.erase component))
  | eraseIf which => return .erased (← Act.ofTask (Inventory.eraseIf which))
  | register component manager => do
    Inventory.register component manager
    return .done
  | setPrimary manager => do
    modify (·.setPrimary manager)
    return .done
  | begin component => do
    Inventory.begin component
    return .done
  | finish component => do
    Inventory.finish component
    return .done
  | dispatch eid request => return .response (← Act.ofTask (Inventory.dispatch eid request))

/-- What is seen of operations on an inventory, and the inventory after them. -/
def run (link : Link) : List (Operation μ) → Inventory μ → List Seen × Inventory μ
  | [], i => ([], i)
  | op :: rest, i =>
    let seen : Seen :=
      { result := op.act.result i link [], offers := (op.act.journal i link []).offers }
    let (more, i) := run link rest (op.act.state i link [])
    (seen :: more, i)

/-- An operation does to an inventory what it does to its roster. -/
def Follows (op : Operation μ) (i : Inventory μ) (link : Link) (journal : Journal) : Prop :=
  Act.Ends op.act i link journal fun result i' journal' =>
    result = (i.roster.step op).1.result ∧ i'.roster = (i.roster.step op).2 ∧
      journal'.offers = journal.offers ++ (i.roster.step op).1.offers

theorem follows_register {manager : μ} :
    Follows (.register component manager) i link journal := by
  have known : i.roster.records.contains component = (i.find? component).isSome :=
    contains_records
  have silent : journal.offers = journal.offers ++ [] := (List.append_nil _).symm
  simp only [Follows, Operation.act, register, Act.ends_bind, Act.ends_get, Roster.step]
  cases found : i.find? component with
  | none =>
    simp only [known, found, Act.ends_bind, Act.ends_lift, Effect.ends_log, Act.ends_throw]
    exact ⟨rfl, rfl, Journal.offers_logged.trans silent⟩
  | some entry =>
    have managed : i.roster.managers.any (·.1 == component) = entry.manager?.isSome := by
      rw [Bool.eq_iff_iff, List.any_eq_true, ← mem_components_managers found]
      simp [roster]
    cases manager? : entry.manager? with
    | some =>
      rw [manager?] at managed
      simp only [known, found, managed, manager?]
      exact ⟨rfl, rfl, Journal.offers_logged.trans silent⟩
    | none =>
      rw [manager?] at managed
      simp only [known, found, managed, manager?]
      exact ⟨rfl, roster_withManager found manager?, silent⟩

theorem follows_begin : Follows (.begin component) i link journal := by
  simp only [Follows, Operation.act, begin, Act.ends_bind, Act.ends_get, Roster.step,
    show i.roster.updating? = i.updating? from rfl]
  cases i.updating? with
  | none => exact ⟨rfl, rfl, Journal.offers_logged.trans (List.append_nil _).symm⟩
  | some running => exact ⟨rfl, rfl, Journal.offers_logged.trans (List.append_nil _).symm⟩

theorem follows_finish : Follows (.finish component) i link journal := by
  simp only [Follows, Operation.act, finish, Act.ends_bind, Act.ends_get, Roster.step,
    show i.roster.updating? = i.updating? from rfl]
  by_cases running : i.updating? = some component
  · simp only [running, ne_eq, not_true_eq_false, if_false, if_true]
    exact ⟨rfl, rfl, Journal.offers_logged.trans (List.append_nil _).symm⟩
  · simp only [running, ne_eq, not_false_eq_true, if_false, if_true]
    exact ⟨rfl, rfl, Journal.offers_logged.trans (List.append_nil _).symm⟩

theorem follows (op : Operation μ) : Follows op i link journal := by
  have silent : journal.offers = journal.offers ++ [] := (List.append_nil _).symm
  cases op with
  | create component firmware =>
    simp only [Follows, Operation.act, create, Act.ends_bind, Act.ends_ofTask, Task.ends_bind,
      Task.ends_lift, Effect.ends_log, Task.ends_modify, Act.ends_pure]
    exact ⟨rfl, roster_withRecord, Journal.offers_logged.trans silent⟩
  | erase component =>
    simp only [Follows, Operation.act, Act.ends_bind, Act.ends_ofTask]
    refine ends_erase.mono ?_
    rintro was i' journal' ⟨rfl, roster, offers⟩
    exact ⟨rfl, roster, offers.trans silent⟩
  | eraseIf which =>
    simp only [Follows, Operation.act, Act.ends_bind, Act.ends_ofTask]
    refine ends_eraseIf.mono ?_
    rintro count i' journal' ⟨rfl, roster, offers⟩
    exact ⟨rfl, roster, offers.trans silent⟩
  | register component manager => exact follows_register
  | setPrimary manager => exact ⟨rfl, rfl, silent⟩
  | begin component => exact follows_begin
  | finish component => exact follows_finish
  | dispatch eid request =>
    simp only [Follows, Operation.act, Act.ends_bind, Act.ends_ofTask]
    refine ends_dispatch_line.mono ?_
    rintro response i' journal' ⟨rfl, roster, offers⟩
    exact ⟨rfl, roster, offers⟩

theorem nodup_offers (op : Operation μ) (i : Inventory μ) :
    (i.roster.step op).1.offers.Nodup := by
  cases op with
  | dispatch eid request => exact (nodup_line i eid).sublist (Roster.asked_prefix.sublist.map _)
  | _ =>
    simp only [Roster.step]
    repeat' split
    all_goals exact List.nodup_nil

theorem run_eq (ops : List (Operation μ)) (i : Inventory μ) :
    (run link ops i).1 = (Roster.run ops i.roster).1 ∧
      (run link ops i).2.roster = (Roster.run ops i.roster).2 ∧
      ∀ seen ∈ (run link ops i).1, seen.offers.Nodup := by
  induction ops generalizing i with
  | nil => exact ⟨rfl, rfl, List.forall_mem_nil _⟩
  | cons op rest ih =>
    have step : Follows op i link [] := follows op
    obtain ⟨result, roster, offers⟩ := Act.ends_iff.mp step
    obtain ⟨seen, after, once⟩ := ih (op.act.state i link [])
    rw [roster] at seen after
    refine ⟨?_, after, List.forall_mem_cons.mpr ⟨?_, once⟩⟩
    · simp only [run, Roster.run, seen, result, offers]
      rfl
    · exact offers ▸ nodup_offers op i

/-- Every run of an inventory is seen as that of its roster, and no operation offers a request
to anyone twice. -/
theorem runs_as_roster (link : Link) (ops : List (Operation μ)) :
    (run link ops {}).1 = (Roster.run ops {}).1 ∧
      (run link ops {}).2.roster = (Roster.run ops {}).2 ∧
      ∀ seen ∈ (run link ops {}).1, seen.offers.Nodup := by
  have empty : roster ({} : Inventory μ) = {} := by
    simp only [roster, managers, managersOf, List.filter_nil, List.filterMap_nil,
      List.mergeSort_nil, List.map_nil]
    rfl
  exact empty ▸ run_eq ops {}

end Inventory

end TerminusMonitor
