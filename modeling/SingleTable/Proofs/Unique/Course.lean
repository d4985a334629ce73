import SingleTable.Connection.Entities
import SingleTable.Proofs.Unique.Change

/-!
# The course of an operation

Creates, updates and deletes are dialogues with the store.  What matters about them is which
writes they may submit, and what their client knows by then: an item that was read is known as
it was, until the next write.  `Course` says that every write is lawful: it leads where a
transfer says, and if what is known is still true, so is what the transfer believes.
-/

namespace SingleTable

namespace Entity

/-- A write that leads where a transfer says whenever it is carried out. -/
def Lawful (entity : Entity) (known : Rows → Prop) (call : Call) : Prop :=
  ∀ (service : Service) (before after : Rows) (operations : List WriteOperation),
    call.operations? = some operations → before.Placed entity.table → entity.Textual before →
    service.transact entity.table before operations = some after →
    ∃ transfer : Transfer, transfer.Leads entity before after ∧
      transfer.Sent entity ⟨before, operations, after⟩ ∧ (known before → transfer.Expects entity before)

/-- Operations that submit a transfer are lawful if what they make of its item fits the transfer. -/
theorem lawful_of_submits {entity : Entity} (enforces : entity.Enforces) {known : Rows → Prop}
    {call : Call} {operations : List WriteOperation} (operations_eq : call.operations? = some operations)
    {transfer : Transfer} {main : WriteOperation} (submits : transfer.Submits entity main operations)
    (planned : ∀ (service : Service) (rows : Rows) (row : Option Item), rows.Placed entity.table →
      entity.Textual rows → service.plan entity.table rows main = some (transfer.key, row) →
      transfer.Fits entity rows row ∧ (known rows → transfer.Expects entity rows)) :
    entity.Lawful known call := by
  intro service before after others others_eq placed textual transacted
  rw [operations_eq] at others_eq
  obtain rfl := Option.some.inj others_eq
  obtain ⟨row, isPlan, -⟩ := exists_plan submits transacted
  refine ⟨transfer, ?_, sent_of_submits enforces submits before after, ?_⟩
  · exact leads_of_submits enforces submits transacted placed fun row isPlan =>
      (planned service before row placed textual isPlan).1
  · exact (planned service before row placed textual isPlan).2

/-- An operation that moves no unique value is lawful whatever is known. -/
theorem lawful_alone {entity : Entity} (enforces : entity.Enforces) {known : Rows → Prop} {call : Call}
    {main : WriteOperation} (operations_eq : call.operations? = some [main]) {transfer : Transfer}
    (isItem : main.key? entity.table = some transfer.key) (live : entity.Live transfer.key)
    (unmoved : ∀ attr ∈ entity.uniqueNames, transfer.move attr = none)
    (fits : ∀ (service : Service) (rows : Rows) (row : Option Item), entity.Textual rows →
      service.plan entity.table rows main = some (transfer.key, row) → transfer.Fits entity rows row) :
    entity.Lawful known call := by
  refine lawful_of_submits enforces operations_eq (submits_alone isItem live unmoved) ?_
  intro service rows row _ textual isPlan
  refine ⟨fits service rows row textual isPlan, ?_⟩
  intro _ attr isUnique old new move_eq
  rw [unmoved attr isUnique] at move_eq
  cases move_eq

/-- A dialogue whose writes are all lawful. -/
inductive Course (entity : Entity) {α : Type} : (Rows → Prop) → Dialogue α → Prop where
  | done (known : Rows → Prop) (result : α) : Course entity known (.done result)
  | read {known : Rows → Prop} (request : GetRequest)
      (resume : Except Error (Option Item) → Dialogue α) (live : entity.Live request.key)
      (failed : ∀ error, Course entity known (resume (.error error)))
      (answered : ∀ prior, entity.TextualItem prior →
        Course entity (fun rows => rows request.key = prior) (resume (.ok prior))) :
      Course entity known (.ask (.get request) resume)
  | write {known : Rows → Prop} (call : Call) (resume : Except Error call.Answer → Dialogue α)
      (lawful : entity.Lawful known call)
      (answered : ∀ answer, Course entity (fun _ => True) (resume answer)) :
      Course entity known (.ask call resume)

section Dialogues

variable {entity : Entity} {known : Rows → Prop} {α β : Type}

/-! ## Building courses -/

theorem course_bind {operation : Operation α} {next : α → Operation β}
    (course : entity.Course known operation.run) (rest : ∀ known value, entity.Course known (next value).run) :
    entity.Course known (operation >>= next).run := by
  have bind_eq : (operation >>= next).run = operation.run.bind (ExceptT.bindCont next) := rfl
  rw [bind_eq]
  generalize operation.run = dialogue at course
  induction course with
  | done known result =>
    cases result with
    | ok value => exact rest known value
    | error error => exact .done known _
  | read request resume live _ _ failedHypothesis answeredHypothesis =>
    exact .read request _ live failedHypothesis answeredHypothesis
  | write call resume lawful _ answeredHypothesis =>
    exact .write call _ lawful answeredHypothesis

/-- A computation without a call only decides whether the operation goes on. -/
theorem course_lift {result : Except Error α} {next : α → Operation β}
    (rest : ∀ value, result = .ok value → entity.Course known (next value).run) :
    entity.Course known ((liftM result : Operation α) >>= next).run := by
  cases result with
  | error error => exact .done known _
  | ok value => exact rest value rfl

theorem course_ofExcept (result : Except Error α) :
    entity.Course known (liftM result : Operation α).run := .done known result

theorem course_write {call : Call} (lawful : entity.Lawful known call) :
    entity.Course known (Operation.ask call).run :=
  .write call _ lawful fun answer => .done _ answer

theorem course_read {request : GetRequest} (live : entity.Live request.key) :
    entity.Course known (Operation.ask (.get request)).run :=
  .read request _ live (fun _ => .done _ _) fun _ _ => .done _ _

/-! ## Transactions -/

theorem course_submit {operations : List WriteOperation}
    (lawful : entity.Lawful known (.transactWrite operations)) :
    entity.Course known (Connection.submit operations).run := by
  unfold Connection.submit
  split
  · exact .done known _
  · refine course_bind (course_write lawful) ?_
    intro known outcome
    cases outcome <;> exact .done known _

theorem course_limited (limit count : Nat) {operations : List WriteOperation}
    (lawful : entity.Lawful known (.transactWrite operations)) :
    entity.Course known (do
      if limit < operations.length then
        throw (.transactionTooLarge count operations.length limit)
      Connection.submit operations : Operation Unit).run := by
  split
  · exact .done known _
  · exact course_submit lawful

theorem course_direct {connection : Connection} {operations : List WriteOperation}
    (lawful : entity.Lawful known (.transactWrite operations)) :
    entity.Course known (connection.executeWrites [.direct operations]).run := by
  rw [← List.append_nil operations] at lawful
  exact course_limited connection.config.maxTransactionItems 1 lawful

theorem course_afterRead {connection : Connection} {name : String} {item : KeyRef}
    {operationsAfter : Option Item → Except Error (List WriteOperation)}
    (live : entity.Live item.key)
    (lawful : ∀ prior operations, entity.TextualItem prior → operationsAfter prior = .ok operations →
      entity.Lawful (fun rows => rows item.key = prior) (.transactWrite operations)) :
    entity.Course known (connection.executeWrites [.afterRead name item operationsAfter]).run := by
  refine .read _ _ live ?_ ?_
  · intro error
    exact .done known _
  · intro prior textual
    have goesOn : ∀ result, result = operationsAfter prior →
        entity.Course (fun rows => rows item.key = prior)
          (((liftM result : Operation (List WriteOperation)) >>= fun operations =>
              (return operations ++ [] : Operation (List WriteOperation))) >>= fun operations => do
            if connection.config.maxTransactionItems < operations.length then
              throw (.transactionTooLarge 1 operations.length connection.config.maxTransactionItems)
            Connection.submit operations : Operation Unit).run := by
      intro result result_eq
      cases result with
      | error error => exact .done _ _
      | ok operations =>
        have lawful := lawful prior operations textual result_eq.symm
        rw [← List.append_nil operations] at lawful
        exact course_limited connection.config.maxTransactionItems 1 lawful
    exact goesOn _ rfl

/-! ## Creates, updates and deletes -/

section Operations

variable [Storable α] (enforces : entity.Enforces) (keysApart : entity.KeysApart)
  {connection : Connection} {typeName : String} (registered : connection.entity typeName = .ok entity)
include enforces keysApart registered

/-- The unique values of a new entity are strings, and what it may ask for besides is plain. -/
structure ProperCreate (entity : Entity) (draw : String → Moment) (value : α)
    (options : CreateOptions) : Prop where
  guarded : options.overwrite = false
  plain : ∀ condition ∈ options.condition, ∀ path ∈ condition.paths, Path.IsPlain path
  textual : ∀ attributes, Storable.toItem value = .ok attributes →
    entity.TextualItem (some (entity.applyDefaults draw attributes))

theorem course_create {draw : String → Moment} {value : α} {options : CreateOptions}
    (proper : entity.ProperCreate draw value options) :
    entity.Course known (connection.create draw typeName value options).run := by
  unfold Connection.create
  rw [registered]
  refine course_lift ?_
  rintro _ ⟨⟩
  refine course_lift ?_
  intro attributes isAttributes
  refine course_lift ?_
  rintro ⟨put, claims⟩ isCreated
  have created := createOperations_eq_ok isCreated
  have textual : entity.TextualItem (some put.item) := by
    intro attr isUnique found holds
    apply proper.textual attributes (ConversionError.lift_eq_ok.1 isAttributes) attr isUnique
    rw [Option.bind_some, Item.present?] at holds ⊢
    rwa [get?_toPhysical_of_attribute enforces.wellNamed created.item
      (enforces.declared attr isUnique)] at holds
  obtain ⟨key, submits⟩ := submits_create enforces keysApart created textual
  have lawful : ∀ call : Call, call.operations? = some (.put put :: claims) →
      entity.Lawful known call := by
    intro call operations_eq
    refine lawful_of_submits enforces operations_eq submits ?_
    intro service rows row placed _ isPlan
    obtain ⟨-, -, meets⟩ := Service.plan_put isPlan
    have isVacant := placed.eq_none (created.needsVacancy (isWord_keyAttributes enforces)
      proper.guarded proper.plain service _ meets)
    exact ⟨fits_create isPlan, fun _ => expects_create isVacant⟩
  dsimp only
  split
  · next noClaims =>
    obtain rfl := List.isEmpty_iff.1 noClaims
    refine course_bind (course_write (lawful _ rfl)) ?_
    intro known _
    exact course_ofExcept _
  · refine course_bind (course_direct (lawful _ rfl)) ?_
    intro known _
    exact course_ofExcept _

/-- The body names declared attributes, and assigns strings to unique ones. -/
structure ProperUpdate (entity : Entity) (draw : String → Moment) (body : UpdateBody) : Prop where
  declared : body.Declared entity
  textual : entity.TextualBody (entity.withGenerated draw body)

theorem course_update {draw : String → Moment} {key : Item} {body : UpdateBody}
    {options : UpdateOptions} (proper : entity.ProperUpdate draw body) :
    entity.Course known
      (connection.update draw typeName key body options : Operation α).run := by
  unfold Connection.update
  rw [registered]
  refine course_lift ?_
  rintro _ ⟨⟩
  refine course_lift ?_
  intro write written
  obtain ⟨request, changes, changed, writes⟩ := updateWrite_eq_ok written
  have live : entity.Live request.key := keysApart _ _ writes.key
  have fits (prior : Option Item) (service : Service) (rows : Rows) (row : Option Item)
      (textual : entity.Textual rows)
      (isPlan : service.plan entity.table rows (.update request) = some (request.key, row)) :
      (updateTransfer request.key prior (entity.withGenerated draw body)).Fits entity rows row :=
    fits_update enforces writes proper.declared live textual prior isPlan
  have write_eq := writes.write
  -- an update that changes no unique value is sent at once and needs no knowledge
  split at write_eq
  · next unchanged =>
    rw [write_eq]
    have unmoved : ∀ attr ∈ entity.uniqueNames,
        (updateTransfer request.key none (entity.withGenerated draw body)).move attr = none :=
      fun attr isUnique => unmoved_of_unchanged writes.uniques isUnique (List.isEmpty_iff.1 unchanged)
    have lawful : entity.Lawful known (.update request) :=
      lawful_alone enforces rfl rfl live unmoved (fits none)
    refine course_bind (course_write lawful) ?_
    intro known updated
    cases updated with
    | none => exact .done known _
    | some item => exact course_ofExcept _
  · next isChanged =>
    rw [write_eq]
    refine course_bind (course_afterRead live ?_) ?_
    · intro prior operations priorTextual resolved
      refine lawful_of_submits enforces rfl (submits_update enforces keysApart writes.key writes.uniques
        proper.textual priorTextual resolved) ?_
      intro service rows row _ textual isPlan
      refine ⟨fits prior service rows row textual isPlan, ?_⟩
      rintro rfl
      exact expects_update rows request.key _
    · intro known _
      refine course_lift ?_
      intro reading isReading
      obtain ⟨readKey, isReadKey, rest⟩ := bind_eq_ok.1 isReading
      obtain ⟨⟨projection, bindings⟩, -, answer⟩ := bind_eq_ok.1 rest
      obtain rfl := Except.ok.inj answer
      refine course_bind (course_read (keysApart _ _ isReadKey)) ?_
      intro known updated
      cases updated with
      | none => exact .done known _
      | some item => exact course_ofExcept _

theorem course_delete {key : Item} {options : DeleteOptions} :
    entity.Course known (connection.delete typeName key options).run := by
  unfold Connection.delete
  rw [registered]
  refine course_lift ?_
  rintro _ ⟨⟩
  refine course_lift ?_
  intro write written
  obtain ⟨itemKey, isKey, rest⟩ := bind_eq_ok.1 written
  obtain ⟨⟨condition, bindings⟩, -, answer⟩ := bind_eq_ok.1 rest
  have live : entity.Live itemKey := keysApart _ _ isKey
  dsimp only at answer
  split at answer
  · next hasUniques =>
    obtain rfl := Except.ok.inj answer
    refine course_afterRead live ?_
    intro prior operations priorTextual resolved
    refine lawful_of_submits enforces rfl (submits_delete enforces live priorTextual resolved) ?_
    intro service rows row _ _ isPlan
    refine ⟨fits_delete prior isPlan, ?_⟩
    rintro rfl
    exact expects_delete rows itemKey
  · next noUniques =>
    obtain rfl := Except.ok.inj answer
    have noNames : entity.uniqueNames = [] := by
      simpa [hasUniques, uniqueNames] using noUniques
    have unmoved : ∀ attr ∈ entity.uniqueNames, (deleteTransfer itemKey none).move attr = none := by
      simp [noNames]
    refine course_write (lawful_alone enforces rfl rfl live unmoved ?_)
    intro service rows row _ isPlan
    exact fits_delete none isPlan

end Operations

end Dialogues

end Entity

/-! ## Jobs -/

/-- What a client does with an entity whose values are of some type. -/
inductive Job (α : Type) where
  | create (draw : String → Moment) (value : α) (options : CreateOptions)
  | update (draw : String → Moment) (key : Item) (body : UpdateBody) (options : UpdateOptions)
  | delete (key : Item) (options : DeleteOptions)

namespace Job

variable {α : Type} [Storable α]

def dialogue (connection : Connection) (typeName : String) : Job α → Dialogue (Except Error Unit)
  | create draw value options =>
    (do discard (connection.create draw typeName value options) : Operation Unit).run
  | update draw key body options =>
    (do discard (connection.update draw typeName key body options : Operation α) :
      Operation Unit).run
  | delete key options => (connection.delete typeName key options).run

/-- A create must not overwrite, and all unique values are strings. -/
def Proper (entity : Entity) : Job α → Prop
  | create draw value options => entity.ProperCreate draw value options
  | update draw _ body _ => entity.ProperUpdate draw body
  | delete _ _ => True

theorem course {entity : Entity} (enforces : entity.Enforces) (keysApart : entity.KeysApart)
    {connection : Connection} {typeName : String} (registered : connection.entity typeName = .ok entity)
    {job : Job α} (proper : job.Proper entity) (known : Rows → Prop) :
    entity.Course known (job.dialogue connection typeName) := by
  cases job with
  | create draw value options =>
    exact Entity.course_bind (Entity.course_create enforces keysApart registered proper)
      fun known _ => .done known _
  | update draw key body options =>
    exact Entity.course_bind (Entity.course_update enforces keysApart registered proper)
      fun known _ => .done known _
  | delete key options => exact Entity.course_delete enforces keysApart registered

end Job

end SingleTable
