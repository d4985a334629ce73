import Mathlib.Logic.Function.Basic
import SingleTable.Proofs.Entity.Layout
import SingleTable.Proofs.Service.Evaluation
import SingleTable.Store.Dialogue

/-!
# A table of the service

The service keeps the items of a table by their keys.  A write is planned on the rows as they
are: every operation must be possible and no two may be about the same item.  Then all of them
are applied, or none.
-/

namespace SingleTable

open Grammar

/-! ## Keys -/

namespace Table

variable (table : Table)

def keyOf? (item : Item) : Option Item :=
  if table.keyAttributes.all item.contains then
    some (item.filter fun name _ => table.keyAttributes.contains name)
  else none

def isKey (item : Item) : Bool := table.keyOf? item = some item

variable {table}

theorem contains_of_keyOf? {item key : Item} (isKey : table.keyOf? item = some key) {name : String}
    (isMember : name ∈ table.keyAttributes) : item.contains name = true := by
  unfold keyOf? at isKey
  split at isKey
  · next complete => exact List.all_eq_true.1 complete name isMember
  · cases isKey

/-- The key of an item is the item that has its key attributes and no other. -/
theorem keyOf?_eq_some {item key : Item}
    (same : ∀ name ∈ table.keyAttributes, key.get? name = item.get? name)
    (complete : ∀ name ∈ table.keyAttributes, key.contains name = true)
    (others : ∀ name, name ∉ table.keyAttributes → key.get? name = none) :
    table.keyOf? item = some key := by
  have all : table.keyAttributes.all item.contains = true := by
    rw [List.all_eq_true]
    intro name isMember
    have isPresent := complete name isMember
    rwa [NameMap.contains, same name isMember] at isPresent
  rw [keyOf?, if_pos all, Option.some.injEq]
  apply NameMap.ext_get?
  intro name
  rw [NameMap.get?_filter]
  by_cases isMember : name ∈ table.keyAttributes
  · rw [same name isMember]
    cases item.get? name <;> simp [isMember]
  · rw [others name isMember]
    cases item.get? name <;> simp [isMember]

end Table

/-! ## Rows -/

/-- The items of a table by their keys. -/
abbrev Rows := Item → Option Item

namespace Rows

def empty : Rows := fun _ => none

/-- The item that conditions are about: one without attributes if there is none. -/
def read (rows : Rows) (key : Item) : Item := (rows key).getD ∅

/-- Every item is where its key says. -/
def Placed (table : Table) (rows : Rows) : Prop :=
  ∀ key item, rows key = some item → table.keyOf? item = some key

theorem Placed.eq_none {table : Table} {rows : Rows} (placed : Placed table rows) {key : Item}
    (isAbsent : (rows.read key).contains table.partitionKey = false) : rows key = none := by
  cases row : rows key with
  | none => rfl
  | some item =>
    have isKey : table.partitionKey ∈ table.keyAttributes := by simp [Table.keyAttributes]
    have isPresent := Table.contains_of_keyOf? (placed key item row) isKey
    rw [read, row, Option.getD_some, isPresent] at isAbsent
    cases isAbsent

end Rows

/-! ## Writing -/

def WriteOperation.key? (table : Table) : WriteOperation → Option Item
  | .put request => table.keyOf? request.item
  | .update request => some request.key
  | .delete request => some request.key

/-- The operations of a call that writes; a single write is a transaction of one operation. -/
def Call.operations? : Call → Option (List WriteOperation)
  | .put request => some [.put request]
  | .update request => some [.update request]
  | .delete request => some [.delete request]
  | .transactWrite operations => some operations
  | _ => none

namespace Service

variable (service : Service) (table : Table) (rows : Rows)

/-- The key of the item that an operation is about, and what it makes of that item; none if the
operation is not possible.  The key of an item does not change. -/
def plan : WriteOperation → Option (Item × Option Item)
  | .put request => do
    let key ← table.keyOf? request.item
    if request.table = table.name && service.meets (rows.read key) request.condition request.bindings
    then return (key, some request.item)
    else none
  | .update request => do
    if request.table = table.name && table.isKey request.key &&
      service.meets (rows.read request.key) request.condition request.bindings
    then
      let changes ← readUpdate request.update request.bindings
      let item ← service.execute changes ((rows request.key).getD request.key)
      if table.keyOf? item = some request.key then return (request.key, some item) else none
    else none
  | .delete request =>
    if request.table = table.name && table.isKey request.key &&
      service.meets (rows.read request.key) request.condition request.bindings
    then some (request.key, none)
    else none

def apply (plans : List (Item × Option Item)) (rows : Rows) : Rows :=
  plans.foldl (fun rows plan => Function.update rows plan.1 plan.2) rows

/-- The rows after all of some operations, unless one of them is not possible. -/
def transact (operations : List WriteOperation) : Option Rows := do
  let plans ← operations.mapM (service.plan table rows)
  if (plans.map Prod.fst).Nodup then return apply plans rows else none

def write (call : Call) : Option Rows := do
  let operations ← call.operations?
  if (service.refuses call).isSome then none
  else service.transact table rows operations

def error (call : Call) : Error := (service.refuses call).getD (service.failure call)

/-- The service as the store of a table.  A read answers the whole item as it is now. -/
def store : Store Rows
  | .get request, rows =>
    (match service.refuses (.get request) with
      | some error => .error error
      | none => .ok (rows request.key), rows)
  | .put request, rows =>
    match service.write table rows (.put request) with
    | some after => (.ok (), after)
    | none => (.error (service.error (.put request)), rows)
  | .update request, rows =>
    match service.write table rows (.update request) with
    | some after => (.ok (after request.key), after)
    | none => (.error (service.error (.update request)), rows)
  | .delete request, rows =>
    match service.write table rows (.delete request) with
    | some after => (.ok (), after)
    | none => (.error (service.error (.delete request)), rows)
  | .transactWrite operations, rows =>
    match service.write table rows (.transactWrite operations) with
    | some after => (.ok .committed, after)
    | none =>
      (match service.refuses (.transactWrite operations) with
        | some error => .error error
        | none => .ok (.cancelled (service.reasons operations)), rows)
  -- calls about several items are not needed to write one
  | call, rows => (.error (service.error call), rows)

variable {service table rows}

/-! ## What a write does -/

theorem apply_of_not_mem {plans : List (Item × Option Item)} {key : Item}
    (notMember : key ∉ plans.map Prod.fst) : apply plans rows key = rows key := by
  induction plans generalizing rows with
  | nil => rfl
  | cons plan plans inductionHypothesis =>
    rw [List.map_cons, List.mem_cons, not_or] at notMember
    rw [apply, List.foldl_cons, ← apply, inductionHypothesis notMember.2,
      Function.update_of_ne notMember.1]

theorem apply_of_mem {plans : List (Item × Option Item)} (nodup : (plans.map Prod.fst).Nodup)
    {plan : Item × Option Item} (isMember : plan ∈ plans) : apply plans rows plan.1 = plan.2 := by
  induction plans generalizing rows with
  | nil => cases isMember
  | cons first plans inductionHypothesis =>
    rw [List.map_cons, List.nodup_cons] at nodup
    rw [apply, List.foldl_cons, ← apply]
    rcases List.mem_cons.1 isMember with rfl | isMember
    · rw [apply_of_not_mem nodup.1, Function.update_self]
    · exact inductionHypothesis nodup.2 isMember

theorem forall₂_of_mapM_eq_some {α β : Type} {f : α → Option β} {elements : List α}
    {results : List β} (mapped : elements.mapM f = some results) :
    List.Forall₂ (fun element result => f element = some result) elements results := by
  induction elements generalizing results with
  | nil =>
    obtain rfl := Option.some.inj mapped
    exact .nil
  | cons element elements inductionHypothesis =>
    simp only [List.mapM_cons, Option.pure_def, Option.bind_eq_bind, Option.bind_eq_some_iff,
      Option.some.injEq] at mapped
    obtain ⟨result, isResult, others, areOthers, rfl⟩ := mapped
    exact .cons isResult (inductionHypothesis areOthers)

theorem exists_mapM_eq_some {α β : Type} {f : α → Option β} {elements : List α}
    (each : ∀ element ∈ elements, ∃ result, f element = some result) :
    ∃ results, elements.mapM f = some results := by
  induction elements with
  | nil => exact ⟨[], rfl⟩
  | cons element elements inductionHypothesis =>
    obtain ⟨⟨first, isFirst⟩, others⟩ := List.forall_mem_cons.1 each
    obtain ⟨results, areResults⟩ := inductionHypothesis others
    exact ⟨first :: results, by rw [List.mapM_cons, isFirst, areResults]; rfl⟩

theorem transact_eq_some {operations : List WriteOperation} {after : Rows}
    (transacted : service.transact table rows operations = some after) :
    ∃ plans, List.Forall₂ (fun operation plan => service.plan table rows operation = some plan)
        operations plans ∧
      (plans.map Prod.fst).Nodup ∧ after = apply plans rows := by
  simp only [transact, Option.bind_eq_bind, Option.bind_eq_some_iff] at transacted
  obtain ⟨plans, planned, rest⟩ := transacted
  split at rest
  · next nodup =>
    exact ⟨plans, forall₂_of_mapM_eq_some planned, nodup, (Option.some.inj rest).symm⟩
  · cases rest

theorem write_eq_some {call : Call} {after : Rows}
    (written : service.write table rows call = some after) :
    ∃ operations, call.operations? = some operations ∧
      service.transact table rows operations = some after := by
  simp only [write, Option.bind_eq_bind, Option.bind_eq_some_iff] at written
  obtain ⟨operations, operations_eq, rest⟩ := written
  split at rest
  · cases rest
  · exact ⟨operations, operations_eq, rest⟩

/-- The store goes to the rows after a write, and stays as it is if there is none. -/
theorem store_snd (call : Call) :
    (service.store table call rows).2 = (service.write table rows call).getD rows := by
  cases call with
  | put _ | update _ | delete _ | transactWrite _ =>
    simp only [store]
    split <;> simp [*]
  | get _ | query _ | scan _ | batchWrite _ | batchRead _ | transactRead _ =>
    simp [store, write, Call.operations?]

/-! ## Operations one by one -/

theorem plan_put {request : PutRequest} {plan : Item × Option Item}
    (isPlan : service.plan table rows (.put request) = some plan) :
    table.keyOf? request.item = some plan.1 ∧ plan.2 = some request.item ∧
      service.meets (rows.read plan.1) request.condition request.bindings = true := by
  simp only [Service.plan, Option.bind_eq_bind, Option.bind_eq_some_iff] at isPlan
  obtain ⟨key, isKey, rest⟩ := isPlan
  split at rest
  · next possible =>
    obtain rfl := Option.some.inj rest
    rw [Bool.and_eq_true] at possible
    exact ⟨isKey, rfl, possible.2⟩
  · cases rest

theorem plan_update {request : UpdateRequest} {plan : Item × Option Item}
    (isPlan : service.plan table rows (.update request) = some plan) :
    table.keyOf? request.key = some request.key ∧
      service.meets (rows.read request.key) request.condition request.bindings = true ∧
      ∃ changes item, readUpdate request.update request.bindings = some changes ∧
      service.execute changes ((rows request.key).getD request.key) = some item ∧
      table.keyOf? item = some request.key ∧ plan = (request.key, some item) := by
  simp only [Service.plan] at isPlan
  split at isPlan
  · next possible =>
    simp only [Bool.and_eq_true] at possible
    simp only [Option.bind_eq_bind, Option.bind_eq_some_iff] at isPlan
    obtain ⟨changes, read, item, executed, rest⟩ := isPlan
    split at rest
    · next sameKey =>
      refine ⟨by simpa [Table.isKey] using possible.1.2, possible.2, changes, item, read, executed,
        sameKey, ?_⟩
      exact (Option.some.inj rest).symm
    · cases rest
  · cases isPlan

theorem plan_delete {request : DeleteRequest} {plan : Item × Option Item}
    (isPlan : service.plan table rows (.delete request) = some plan) :
    plan = (request.key, none) := by
  simp only [Service.plan] at isPlan
  split at isPlan
  · exact (Option.some.inj isPlan).symm
  · cases isPlan

theorem key?_of_plan {operation : WriteOperation} {plan : Item × Option Item}
    (isPlan : service.plan table rows operation = some plan) : operation.key? table = some plan.1 := by
  cases operation with
  | put request => exact (plan_put isPlan).1
  | update request =>
    obtain ⟨-, -, _, _, -, -, -, rfl⟩ := plan_update isPlan
    rfl
  | delete request => rw [plan_delete isPlan, WriteOperation.key?]

/-- A write carries out each of its operations on the rows before, and touches nothing else. -/
theorem transact_each {operations : List WriteOperation} {after : Rows}
    (transacted : service.transact table rows operations = some after) :
    (∀ operation ∈ operations, ∃ plan, service.plan table rows operation = some plan ∧
        after plan.1 = plan.2) ∧
      ∀ key, (∀ operation ∈ operations, operation.key? table ≠ some key) → after key = rows key := by
  obtain ⟨plans, planned, nodup, rfl⟩ := transact_eq_some transacted
  constructor
  · intro operation isOperation
    obtain ⟨plan, isPlan, planned⟩ := exists_of_forall₂ planned.flip isOperation
    exact ⟨plan, planned, apply_of_mem nodup isPlan⟩
  · intro key untouched
    apply apply_of_not_mem
    intro isMember
    obtain ⟨plan, isPlan, rfl⟩ := List.mem_map.1 isMember
    obtain ⟨operation, isOperation, planned⟩ := exists_of_forall₂ planned isPlan
    exact untouched operation isOperation (key?_of_plan planned)

/-- Operations that are all possible and about different items are carried out. -/
theorem exists_transact {operations : List WriteOperation}
    (possible : ∀ operation ∈ operations, ∃ plan, service.plan table rows operation = some plan)
    (apart : (operations.map (·.key? table)).Nodup) :
    ∃ after, service.transact table rows operations = some after := by
  obtain ⟨plans, planned⟩ := exists_mapM_eq_some possible
  have keys_eq : operations.map (·.key? table) = (plans.map Prod.fst).map some := by
    have each := (forall₂_of_mapM_eq_some planned).imp fun operation plan isPlan => key?_of_plan isPlan
    clear planned possible apart
    induction each with
    | nil => rfl
    | cons key_eq _ inductionHypothesis =>
      rw [List.map_cons, List.map_cons, List.map_cons, key_eq, inductionHypothesis]
  rw [keys_eq] at apart
  refine ⟨apply plans rows, ?_⟩
  rw [transact, planned]
  exact if_pos ((List.pairwise_map.1 apart).imp fun differs same => differs (congrArg some same))

theorem keyOf?_of_plan {operation : WriteOperation} {key item : Item}
    (isPlan : service.plan table rows operation = some (key, some item)) :
    table.keyOf? item = some key := by
  cases operation with
  | put request =>
    obtain ⟨isKey, item_eq, -⟩ := plan_put isPlan
    obtain rfl := Option.some.inj item_eq
    exact isKey
  | update request =>
    obtain ⟨-, -, changes, after, -, -, sameKey, plan_eq⟩ := plan_update isPlan
    obtain ⟨rfl, item_eq⟩ := Prod.mk.inj plan_eq
    obtain rfl := Option.some.inj item_eq
    exact sameKey
  | delete request => cases plan_delete isPlan

theorem placed_of_write {call : Call} {after : Rows} (placed : rows.Placed table)
    (written : service.write table rows call = some after) : after.Placed table := by
  obtain ⟨operations, -, transacted⟩ := write_eq_some written
  obtain ⟨plans, planned, nodup, rfl⟩ := transact_eq_some transacted
  intro key item row
  by_cases isMember : key ∈ plans.map Prod.fst
  · obtain ⟨plan, isPlan, rfl⟩ := List.mem_map.1 isMember
    obtain ⟨operation, -, operationPlan⟩ := exists_of_forall₂ planned isPlan
    rw [apply_of_mem nodup isPlan] at row
    rw [show plan = (plan.1, some item) from by rw [← row]] at operationPlan
    exact keyOf?_of_plan operationPlan
  · rw [apply_of_not_mem isMember] at row
    exact placed key item row

end Service

end SingleTable
