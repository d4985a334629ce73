import SingleTable.Proofs.Entity.Item
import SingleTable.Proofs.Entity.Requests
import SingleTable.Proofs.Service.Store
import SingleTable.Proofs.Update.Targets

/-!
# The update of an entity

The update that is sent makes the changes of the body, of the values that every update makes
anew, and of the keys that follow from both (`Entity.WritesUpdate.read`).
-/

namespace SingleTable

open Grammar

/-! ## Bodies -/

namespace UpdateBody

variable {body : UpdateBody} {path : String} {action : UpdateAction}

theorem mem_of_get? (found : body.get? path = some action) : (path, action) ∈ body.actions := by
  unfold get? at found
  obtain ⟨⟨p, a⟩, isFirst, rfl⟩ := Option.map_eq_some_iff.1 found
  obtain rfl : p = path := by simpa using List.find?_some isFirst
  exact List.mem_of_find?_eq_some isFirst

theorem get?_of_mem (isMember : (path, action) ∈ body.actions) : body.get? path = some action := by
  have found : body.actions.find? (·.1 = path) = some (path, action) :=
    find?_of_nodup body.nodup isMember
  rw [get?, found]
  rfl

theorem ne_of_get?_eq_none (notFound : body.get? path = none) :
    ∀ entry ∈ body.actions, entry.1 ≠ path := by
  intro entry isMember
  unfold get? at notFound
  rw [Option.map_eq_none_iff, List.find?_eq_none] at notFound
  simpa using notFound entry isMember

theorem mem_pushAction {entry : String × UpdateAction} {actions : List (String × UpdateAction)}
    (isMember : entry ∈ pushAction path action actions) :
    entry = (path, action) ∨ entry ∈ actions := by
  induction actions with
  | nil => exact .inl (by simpa [pushAction] using isMember)
  | cons first actions inductionHypothesis =>
    simp only [pushAction] at isMember
    split at isMember
    · next same =>
      rcases List.mem_cons.1 isMember with rfl | isMember
      · exact .inl (by rw [same])
      · exact .inr (by simp [isMember])
    · rcases List.mem_cons.1 isMember with rfl | isMember
      · exact .inr (by simp)
      · rcases inductionHypothesis isMember with same | isMember
        · exact .inl same
        · exact .inr (by simp [isMember])

theorem mem_pushAction_self {actions : List (String × UpdateAction)} :
    (path, action) ∈ pushAction path action actions := by
  induction actions with
  | nil => exact List.mem_singleton_self _
  | cons first actions inductionHypothesis =>
    rw [pushAction]
    split
    · next same =>
      rw [same]
      exact List.mem_cons_self
    · exact List.mem_cons_of_mem _ inductionHypothesis

theorem mem_pushAction_of_ne {entry : String × UpdateAction} {actions : List (String × UpdateAction)}
    (notFound : ∀ entry ∈ actions, entry.1 ≠ path) (isMember : entry ∈ actions) :
    entry ∈ pushAction path action actions := by
  induction actions with
  | nil => cases isMember
  | cons first actions inductionHypothesis =>
    rw [pushAction, if_neg (notFound first (by simp))]
    rcases List.mem_cons.1 isMember with rfl | isMember
    · simp
    · exact List.mem_cons_of_mem _
        (inductionHypothesis (fun other isOther => notFound other (by simp [isOther])) isMember)

theorem get?_eq_none_of_push {other : String} {added : UpdateAction}
    (notFound : body.get? other = none) (unnamed : (body.push other added).get? path = none) :
    body.get? path = none := by
  cases found : body.get? path with
  | none => rfl
  | some action =>
    have isMember : (path, action) ∈ (body.push other added).actions :=
      mem_pushAction_of_ne (ne_of_get?_eq_none notFound) (mem_of_get? found)
    rw [get?_of_mem isMember] at unnamed
    cases unnamed

/-- The body names declared attributes, or paths inside them. -/
def Declared (entity : Entity) (body : UpdateBody) : Prop :=
  ∀ entry ∈ body.actions, Path.IsPlain entry.1 ∧ Path.top entry.1 ∈ entity.attributeNames

end UpdateBody

namespace Entity

variable {entity : Entity}

/-- Generated values are assigned by name to declared attributes that the body does not name. -/
theorem mem_withGenerated {draw : String → Moment} {body : UpdateBody}
    {entry : String × UpdateAction} (isMember : entry ∈ (entity.withGenerated draw body).actions) :
    entry ∈ body.actions ∨ ∃ attr ∈ entity.attributes, ∃ rule, attr.generated = some rule ∧
      rule.onUpdate = true ∧ body.get? attr.name = none ∧
        entry = (attr.name, .set (rule.strategy.generate (draw attr.name))) := by
  unfold withGenerated at isMember
  generalize entity.attributes = attributes at *
  induction attributes generalizing body with
  | nil => exact .inl isMember
  | cons attr attributes inductionHypothesis =>
    rw [List.foldl_cons] at isMember
    rcases inductionHypothesis isMember with
      isMember | ⟨other, isOther, rule, rule_eq, onUpdate, unnamed, entry_eq⟩
    · split at isMember
      · next rule rule_eq =>
        split at isMember
        · next missing =>
          rw [Bool.and_eq_true, Option.isNone_iff_eq_none] at missing
          rcases UpdateBody.mem_pushAction isMember with entry_eq | isMember
          · exact .inr ⟨attr, by simp, rule, rule_eq, missing.1, missing.2, entry_eq⟩
          · exact .inl isMember
        · exact .inl isMember
      · exact .inl isMember
    · refine .inr ⟨other, by simp [isOther], rule, rule_eq, onUpdate, ?_, entry_eq⟩
      split at unnamed
      · split at unnamed
        · next missing =>
          rw [Bool.and_eq_true, Option.isNone_iff_eq_none] at missing
          exact UpdateBody.get?_eq_none_of_push missing.2 unnamed
        · exact unnamed
      · exact unnamed

/-- A value that is generated takes the place of no action. -/
theorem mem_withGenerated_of_mem (draw : String → Moment) {body : UpdateBody}
    {entry : String × UpdateAction} (isMember : entry ∈ body.actions) :
    entry ∈ (entity.withGenerated draw body).actions := by
  unfold withGenerated
  generalize entity.attributes = attributes
  induction attributes generalizing body with
  | nil => exact isMember
  | cons attr attributes inductionHypothesis =>
    rw [List.foldl_cons]
    apply inductionHypothesis
    split
    · split
      · next missing =>
        rw [Bool.and_eq_true, Option.isNone_iff_eq_none] at missing
        exact UpdateBody.mem_pushAction_of_ne (UpdateBody.ne_of_get?_eq_none missing.2) isMember
      · exact isMember
    · exact isMember

theorem declared_withGenerated (wellNamed : entity.WellNamed) (draw : String → Moment)
    {body : UpdateBody} (declared : body.Declared entity) :
    (entity.withGenerated draw body).Declared entity := by
  intro entry isMember
  rcases mem_withGenerated isMember with isMember | ⟨attr, isAttribute, rule, -, -, -, rfl⟩
  · exact declared entry isMember
  · have isDeclared : attr.name ∈ entity.attributeNames := List.mem_map.2 ⟨attr, isAttribute, rfl⟩
    have isWord := wellNamed.isWord_attribute isDeclared
    exact ⟨Path.isPlain_of_isWord isWord, by rwa [Path.top_of_isWord isWord]⟩

end Entity

/-! ## The request -/

def KeyChanges.actions (changes : KeyChanges) : List (String × UpdateAction) :=
  changes.set.map (fun (attr, value) => (attr, .set value)) ++
    changes.remove.map fun attr => (attr, .remove)

/-- The clauses of the body are the start of those of the keys. -/
theorem Entity.updateClauses_eq_ok {body : UpdateBody} {changes : KeyChanges}
    {clauses : UpdateClauses} (written : Entity.updateClauses body changes = .ok clauses) :
    ∃ own, body.clauses = .ok own ∧
      Succeeds (Updating.applyAll changes.actions) own () clauses := by
  obtain ⟨own, isOwn, rest⟩ := bind_eq_ok.1 written
  dsimp only at rest
  split at rest
  · next after run =>
    obtain rfl := Except.ok.inj rest
    exact ⟨own, isOwn, run⟩
  · cases rest

theorem updateClauses_expresses {body : UpdateBody} {changes : KeyChanges}
    {clauses : UpdateClauses} (written : Entity.updateClauses body changes = .ok clauses)
    (plain : ∀ entry ∈ body.actions ++ changes.actions, Path.IsPlain entry.1) :
    clauses.Expresses (actionChanges (body.actions ++ changes.actions)) := by
  obtain ⟨own, isOwn, run⟩ := Entity.updateClauses_eq_ok written
  have ownExpresses := UpdateBody.clauses_expresses isOwn fun entry isMember =>
    plain entry (List.mem_append.2 (.inl isMember))
  have append_eq : actionChanges (body.actions ++ changes.actions) =
      actionChanges body.actions ++ actionChanges changes.actions := by
    simp [actionChanges]
  rw [append_eq]
  exact (Updating.succeeds_applyAll (fun entry isMember =>
    plain entry (List.mem_append.2 (.inr isMember))) ownExpresses run).2

theorem Grammar.readUpdate_within {text : String} {bindings larger : Bindings}
    (within : bindings.Within larger) {changes : List ItemChange}
    (read : readUpdate text bindings = some changes) : readUpdate text larger = some changes := by
  simp only [readUpdate, Option.bind_eq_bind, Option.bind_eq_some_iff] at read ⊢
  obtain ⟨tokens, lexed, written, parsed, resolved⟩ := read
  exact ⟨tokens, lexed, written, parsed,
    mapM_of_each (fun _ _ => Change.resolve_within within) resolved⟩

namespace Entity

/-- The update that is sent is read as the changes of the body and of the keys. -/
theorem WritesUpdate.read {entity : Entity} {draw : String → Moment} {attributes : Item}
    {body : UpdateBody} {options : UpdateOptions} {write : PendingWrite} {request : UpdateRequest}
    {changes : KeyChanges} {changed : List (String × Option Value)}
    (writes : entity.WritesUpdate draw attributes body options write request changes changed)
    (plain : ∀ entry ∈ (entity.withGenerated draw body).actions ++ changes.actions,
      Path.IsPlain entry.1) :
    readUpdate request.update request.bindings = some (byClause
      (actionChanges ((entity.withGenerated draw body).actions ++ changes.actions))) := by
  obtain ⟨clauses, compiled, areClauses, compiles, update_eq, takes⟩ := writes.expressions
  obtain ⟨_, ⟨_, ⟨⟩, -, within⟩, -⟩ := takes.each.imp_right List.forall₂_cons.1
  rw [update_eq]
  have read := UpdateClauses.readUpdate_of_compile (updateClauses_expresses areClauses plain) compiles
  exact readUpdate_within (within compiled rfl) read

/-- What the caller tells about an item is true of it. -/
def UpdateCall.TellsTruth (call : UpdateCall) (item : Item) : Prop :=
  ∀ told ∈ [call.options.context, call.attributes], ∀ name, told.contains name = true →
    told.present? name = item.present? name

/-- A caller who tells what is stored tells the truth. -/
theorem UpdateCall.tellsTruth_of_stored {call : UpdateCall} {item : Item}
    (stored : ∀ told ∈ [call.options.context, call.attributes], ∀ entry ∈ told.entries,
      item.get? entry.1 = some entry.2) : call.TellsTruth item := by
  intro told isTold name isName
  obtain ⟨value, value_eq⟩ := Option.isSome_iff_exists.1 isName
  have isStored := stored told isTold (name, value) (NameMap.get?_eq_some_iff.1 value_eq)
  rw [Item.present?, Item.present?, value_eq, isStored]

end Entity

/-- The item after an update, executed on it as it is stored; none if the update fails. -/
def Service.perform (service : Service) (entity : Entity) (call : Entity.UpdateCall) (item : Item) :
    Option Item :=
  match call.write entity >>= PendingWrite.operations (some item) with
  | .ok (.update request :: _) => service.update request item
  | _ => none

namespace Entity

/-- What is sent to the store to carry out an update of an item. -/
def UpdateCall.Sends (entity : Entity) (call : UpdateCall) (item : Item) (request : UpdateRequest)
    (sent : Call) : Prop :=
  ∃ others, sent.operations? = some (.update request :: others) ∧
    call.write entity >>= PendingWrite.operations (some item) = .ok (.update request :: others)

/-- In the store an update either changes nothing at all, or the item becomes what it is executed
to. -/
theorem UpdateCall.Sends.store_cases {entity : Entity} {call : UpdateCall} {item : Item}
    {request : UpdateRequest} {sent : Call} (sends : call.Sends entity item request sent)
    (service : Service) {rows : Rows} (isStored : rows request.key = some item) :
    (service.store entity.table sent rows).2 = rows ∨
      ∃ after, service.perform entity call item = some after ∧
        (service.store entity.table sent rows).2 request.key = some after := by
  obtain ⟨others, operations_eq, written⟩ := sends
  rw [Service.store_snd]
  cases isWritten : service.write entity.table rows sent with
  | none => exact .inl rfl
  | some after =>
    obtain ⟨operations, operations_eq', transacted⟩ := Service.write_eq_some isWritten
    rw [operations_eq] at operations_eq'
    obtain rfl := Option.some.inj operations_eq'
    obtain ⟨plan, isPlan, row⟩ := (Service.transact_each transacted).1 _ List.mem_cons_self
    obtain ⟨-, isMet, changes, result, read, executed, -, rfl⟩ := Service.plan_update isPlan
    simp only [Rows.read, isStored, Option.getD_some] at isMet executed
    refine .inr ⟨result, ?_, row⟩
    rw [Service.perform, written]
    simp only [Service.update, isMet, if_true, read, Option.bind_eq_bind, Option.bind_some, executed]

/-- An update that is performed executes the changes of its body and those of keys. -/
theorem exists_of_perform {entity : Entity} {service : Service} {call : UpdateCall}
    (plainBody : ∀ entry ∈ (entity.withGenerated call.draw call.body).actions, Path.IsPlain entry.1)
    {item after : Item} (performed : service.perform entity call item = some after) :
    ∃ changes, entity.affectedIndexes (entity.withGenerated call.draw call.body)
        (call.options.context.union call.attributes) = .ok changes ∧
      ((∀ action ∈ changes.actions, Path.IsPlain action.1) →
        service.execute (byClause (actionChanges
          ((entity.withGenerated call.draw call.body).actions ++ changes.actions))) item =
            some after) := by
  unfold Service.perform at performed
  split at performed
  · next request others written =>
    obtain ⟨write, isWrite, operations_eq⟩ := bind_eq_ok.1 written
    obtain ⟨request', changes, changed, writes⟩ := updateWrite_eq_ok isWrite
    obtain rfl : request = request' := by
      simpa using writes.head_operations operations_eq
    refine ⟨changes, writes.affected, ?_⟩
    intro plain
    have read := writes.read fun entry isMember =>
      (List.mem_append.1 isMember).elim (plainBody entry) (plain entry)
    unfold Service.update at performed
    split at performed
    · simpa [read] using performed
    · cases performed
  · cases performed

end Entity

end SingleTable
