import SingleTable.Proofs.Unique.Sequential

/-!
# Clients that take turns

Any number of clients do their jobs at once, and their calls reach the store in any order.  An
update or a delete releases the value that it read before, and between the two the value may
have become that of another item.  So unique values are not safe from clients that run at once:
they stay unique and recorded exactly as long as every write comes in time
(`Entity.guarded_throughout_iff`).
-/

namespace SingleTable

/-! ## The world of clients -/

/-- Dialogues under way and the store they talk to. -/
structure World where
  pool : List (Dialogue (Except Error Unit)) := []
  rows : Rows := Rows.empty
  /-- All rows that the store has had, the first ones first. -/
  history : List Rows := [Rows.empty]
  /-- The writes that were applied. -/
  log : List Entity.Applied := []

def Service.applied (service : Service) (table : Table) (rows : Rows) (call : Call) :
    List Entity.Applied :=
  match call.operations?, service.write table rows call with
  | some operations, some after => [⟨rows, operations, after⟩]
  | _, _ => []

namespace World

def start (world : World) (dialogue : Dialogue (Except Error Unit)) : World :=
  { world with pool := dialogue :: world.pool }

def answer (world : World) (service : Service) (table : Table)
    (before after : List (Dialogue (Except Error Unit))) (call : Call)
    (resume : Except Error call.Answer → Dialogue (Except Error Unit)) : World where
  pool := before ++ resume (service.store table call world.rows).1 :: after
  rows := (service.store table call world.rows).2
  history := world.history ++ [(service.store table call world.rows).2]
  log := world.log ++ service.applied table world.rows call

/-- What clients can bring about.  New jobs may start at any time, and any dialogue may be the
next to be answered, by a service that may behave differently every time. -/
inductive Reachable (entity : Entity) (α : Type) [Storable α] (connection : Connection)
    (typeName : String) : World → Prop where
  | initial : Reachable entity α connection typeName {}
  | start {world : World} (job : Job α) (proper : job.Proper entity)
      (reachable : Reachable entity α connection typeName world) :
      Reachable entity α connection typeName (world.start (job.dialogue connection typeName))
  | answer {world : World} (service : Service) {before after : List (Dialogue (Except Error Unit))}
      {call : Call} {resume : Except Error call.Answer → Dialogue (Except Error Unit)}
      (pool_eq : world.pool = before ++ .ask call resume :: after)
      (reachable : Reachable entity α connection typeName world) :
      Reachable entity α connection typeName
        (world.answer service entity.table before after call resume)

end World

/-- A call either changes nothing, or it is a write that was applied. -/
theorem Service.applied_cases (service : Service) (table : Table) (rows : Rows) (call : Call) :
    (service.applied table rows call = [] ∧ (service.store table call rows).2 = rows) ∨
      ∃ operations, call.operations? = some operations ∧
        service.write table rows call = some (service.store table call rows).2 ∧
        service.applied table rows call = [⟨rows, operations, (service.store table call rows).2⟩] := by
  rw [Service.store_snd]
  unfold Service.applied
  cases written : service.write table rows call with
  | none =>
    refine .inl ⟨?_, rfl⟩
    split
    · next isWritten => cases isWritten
    · rfl
  | some after =>
    obtain ⟨operations, operations_eq, -⟩ := Service.write_eq_some written
    refine .inr ⟨operations, operations_eq, rfl, ?_⟩
    rw [operations_eq]
    rfl

namespace Entity

variable {entity : Entity} {connection : Connection} {typeName : String}

/-! ## What holds in every world -/

/-- What holds whether or not values stay unique. -/
structure Sane (entity : Entity) (world : World) : Prop where
  placed : world.rows.Placed entity.table
  textual : entity.Textual world.rows
  courses : ∀ dialogue ∈ world.pool, ∃ known, entity.Course known dialogue
  current : world.rows ∈ world.history

theorem sane_initial (entity : Entity) : entity.Sane {} := by
  have ordered := ordered_empty entity
  exact ⟨ordered.placed, ordered.textual, by simp, by simp⟩

/-- The answer to a call leaves its dialogue on course. -/
theorem Course.answer {known : Rows → Prop} {call : Call}
    {resume : Except Error call.Answer → Dialogue (Except Error Unit)}
    (course : entity.Course known (.ask call resume)) (service : Service) {rows : Rows}
    (textual : entity.Textual rows) :
    ∃ known, entity.Course known (resume (service.store entity.table call rows).1) := by
  cases course with
  | read request resume live failed answered =>
    simp only [Service.store]
    split
    · exact ⟨known, failed _⟩
    · exact ⟨_, answered _ (textual.item live)⟩
  | write call resume lawful answered => exact ⟨_, answered _⟩

/-- A write of a dialogue on course leads where a transfer says. -/
theorem Course.leads {known : Rows → Prop} {call : Call}
    {resume : Except Error call.Answer → Dialogue (Except Error Unit)}
    (course : entity.Course known (.ask call resume)) {service : Service} {rows after : Rows}
    {operations : List WriteOperation} (operations_eq : call.operations? = some operations)
    (placed : rows.Placed entity.table) (textual : entity.Textual rows)
    (written : service.write entity.table rows call = some after) :
    ∃ transfer : Transfer, transfer.Leads entity rows after ∧
      transfer.Sent entity ⟨rows, operations, after⟩ := by
  cases course with
  | read request resume live failed answered => cases operations_eq
  | write call resume lawful answered =>
    obtain ⟨others, others_eq, transacted⟩ := Service.write_eq_some written
    rw [operations_eq] at others_eq
    obtain rfl := Option.some.inj others_eq
    obtain ⟨transfer, leads, sent, -⟩ := lawful service rows after operations operations_eq placed
      textual transacted
    exact ⟨transfer, leads, sent⟩

section Worlds

variable {α : Type} [Storable α] (enforces : entity.Enforces) (keysApart : entity.KeysApart)
  (registered : connection.entity typeName = .ok entity)

include enforces keysApart registered in
theorem sane_start {world : World} (sane : entity.Sane world) {job : Job α}
    (proper : job.Proper entity) : entity.Sane (world.start (job.dialogue connection typeName)) := by
  refine ⟨sane.placed, sane.textual, ?_, sane.current⟩
  intro dialogue isDialogue
  rcases List.mem_cons.1 isDialogue with rfl | isDialogue
  · exact ⟨fun _ => True, job.course enforces keysApart registered proper _⟩
  · exact sane.courses dialogue isDialogue

theorem sane_answer {world : World} (sane : entity.Sane world) (service : Service)
    {before after : List (Dialogue (Except Error Unit))} {call : Call}
    {resume : Except Error call.Answer → Dialogue (Except Error Unit)}
    (pool_eq : world.pool = before ++ .ask call resume :: after) :
    entity.Sane (world.answer service entity.table before after call resume) := by
  obtain ⟨known, course⟩ := sane.courses (.ask call resume) (by simp [pool_eq])
  have courses : ∀ dialogue ∈ (world.answer service entity.table before after call resume).pool,
      ∃ known, entity.Course known dialogue := by
    intro dialogue isDialogue
    simp only [World.answer, List.mem_append, List.mem_cons] at isDialogue
    rcases isDialogue with isBefore | rfl | isAfter
    · exact sane.courses dialogue (by simp [pool_eq, isBefore])
    · exact course.answer service sane.textual
    · exact sane.courses dialogue (by simp [pool_eq, isAfter])
  have current : (world.answer service entity.table before after call resume).rows ∈
      (world.answer service entity.table before after call resume).history := by
    simp [World.answer]
  rcases service.applied_cases entity.table world.rows call with ⟨-, rows_eq⟩ |
    ⟨operations, operations_eq, written, -⟩
  · refine ⟨?_, ?_, courses, current⟩
    · simpa only [World.answer, rows_eq] using sane.placed
    · simpa only [World.answer, rows_eq] using sane.textual
  · obtain ⟨transfer, leads, -⟩ := course.leads operations_eq sane.placed sane.textual written
    exact ⟨Service.placed_of_write sane.placed written, textual_of_leads sane.textual leads, courses,
      current⟩

include enforces keysApart registered in
theorem sane_of_reachable {world : World}
    (reachable : World.Reachable entity α connection typeName world) : entity.Sane world := by
  induction reachable with
  | initial => exact sane_initial entity
  | start job proper _ inductionHypothesis =>
    exact sane_start enforces keysApart registered inductionHypothesis proper
  | answer service pool_eq _ inductionHypothesis =>
    exact sane_answer inductionHypothesis service pool_eq

include enforces in
/-- The step of a world: values stay unique exactly if what is applied comes in time. -/
theorem guarded_answer_iff {world : World} (sane : entity.Sane world)
    (sofar : (∀ rows ∈ world.history, entity.Guarded rows) ↔ ∀ applied ∈ world.log, entity.Timely applied)
    (service : Service) {before after : List (Dialogue (Except Error Unit))} {call : Call}
    {resume : Except Error call.Answer → Dialogue (Except Error Unit)}
    (pool_eq : world.pool = before ++ .ask call resume :: after) :
    (∀ rows ∈ (world.answer service entity.table before after call resume).history,
        entity.Guarded rows) ↔
      ∀ applied ∈ (world.answer service entity.table before after call resume).log,
        entity.Timely applied := by
  obtain ⟨known, course⟩ := sane.courses (.ask call resume) (by simp [pool_eq])
  simp only [World.answer, List.forall_mem_append]
  rw [← sofar]
  rcases service.applied_cases entity.table world.rows call with ⟨applied_eq, rows_eq⟩ |
    ⟨operations, operations_eq, written, applied_eq⟩
  · -- the store had these rows before
    rw [applied_eq, rows_eq]
    constructor
    · rintro ⟨guarded, -⟩
      exact ⟨guarded, by simp⟩
    · rintro ⟨guarded, -⟩
      refine ⟨guarded, ?_⟩
      intro rows isRows
      obtain rfl := List.mem_singleton.1 isRows
      exact guarded _ sane.current
  · rw [applied_eq]
    obtain ⟨transfer, leads, sent⟩ := course.leads operations_eq sane.placed sane.textual written
    refine and_congr_right ?_
    intro guarded
    simp only [List.mem_singleton, forall_eq]
    exact guarded_iff_timely enforces sane.textual leads sent (guarded _ sane.current)

end Worlds

/-- Whatever clients do at once and in whatever order their calls are answered: every value stays
unique and recorded exactly as long as no write releases or takes for its own what is another
item's by then. -/
theorem guarded_throughout_iff {α : Type} [Storable α] {declaration : Declaration} {defaultTable : Option Table}
    (compiled : declaration.compile defaultTable = .ok entity) (wellNamed : entity.WellNamed)
    (derives : declaration.DerivesRecords) (plainlyNamed : declaration.PlainlyNamed)
    (keysApart : entity.KeysApart) (registered : connection.entity typeName = .ok entity)
    {world : World} (reachable : World.Reachable entity α connection typeName world) :
    (∀ rows ∈ world.history, entity.Guarded rows) ↔
      ∀ applied ∈ world.log, entity.Timely applied := by
  have enforces := enforces_of_compile compiled wellNamed derives plainlyNamed
  induction reachable with
  | initial =>
    have guarded : ∀ rows ∈ ({} : World).history, entity.Guarded rows := by
      intro rows isRows
      obtain rfl := List.mem_singleton.1 isRows
      constructor
      · intro attr _ value key other _ _ holds
        cases holds
      · intro attr _ value key _ holds
        cases holds
    exact iff_of_true guarded (by simp)
  | start job proper _ inductionHypothesis => exact inductionHypothesis
  | answer service pool_eq reachable inductionHypothesis =>
    have sane := sane_of_reachable enforces keysApart registered reachable
    exact guarded_answer_iff enforces sane inductionHypothesis service pool_eq

end Entity

/-! ## A value that is released too late -/

namespace World

def turn (service : Service) (table : Table) (world : World) (place : Nat) : World :=
  match world.pool.drop place with
  | .ask call resume :: after =>
    world.answer service table (world.pool.take place) after call resume
  | _ => world

/-- What becomes of the world: jobs are started at the front of the pool, and dialogues take
their turns. -/
def play {α : Type} [Storable α] (service : Service) (table : Table) (connection : Connection)
    (typeName : String) (events : List (Job α ⊕ Nat)) : World :=
  events.foldl
    (fun world event =>
      match event with
      | .inl job => world.start (job.dialogue connection typeName)
      | .inr place => world.turn service table place) {}

theorem reachable_play {α : Type} [Storable α] {entity : Entity} {connection : Connection}
    {typeName : String} (service : Service) {events : List (Job α ⊕ Nat)}
    (areProper : ∀ job, .inl job ∈ events → job.Proper entity) :
    Reachable entity α connection typeName (play service entity.table connection typeName events) := by
  induction events using List.reverseRecOn with
  | nil => exact .initial
  | append_singleton events event inductionHypothesis =>
    have reachable := inductionHypothesis fun job isMember => areProper job (by simp [isMember])
    rw [play, List.foldl_append]
    cases event with
    | inl job => exact .start job (areProper job (by simp)) reachable
    | inr place =>
      change Reachable entity α connection typeName
        ((play service entity.table connection typeName events).turn service entity.table place)
      unfold turn
      split
      · next call resume after dropped =>
        refine .answer service ?_ reachable
        rw [← dropped, List.take_append_drop]
      · exact reachable

end World

/-- An email is changed twice at once.  The second change reads the first email, which a new user
takes before that change is written; it then releases the email of the new user. -/
def lateRelease : List (Job Document ⊕ Nat) := [
  .inl (newUser "1" "ann" "a@x"), .inr 0,
  .inl (changeEmail "1" "c@x"), .inr 0,
  .inl (changeEmail "1" "b@x"), .inr 0, .inr 0,
  .inl (newUser "2" "bob" "a@x"), .inr 0,
  .inr 2,
  .inl (newUser "3" "cid" "a@x"), .inr 0]

/-- Two users end up with the same email, and so some write did not come in time. -/
theorem not_timely_of_lateRelease :
    let world := World.play default usersTable (userConnection "USER") "User" lateRelease
    World.Reachable (userEntity "USER") Document (userConnection "USER") "User" world ∧
      ¬ (userEntity "USER").Distinct world.rows ∧
      ¬ ∀ applied ∈ world.log, (userEntity "USER").Timely applied := by
  intro world
  have keysApart :=
    Entity.keysApart_of_startsApart enforces_users (startsApart_userDeclaration "USER")
  have reachable : World.Reachable (userEntity "USER") Document (userConnection "USER") "User" world := by
    apply World.reachable_play
    intro job isJob
    simp only [lateRelease, List.mem_cons, reduceCtorEq, Sum.inl.injEq, List.not_mem_nil, or_false,
      false_or] at isJob
    rcases isJob with rfl | rfl | rfl | rfl | rfl
    · exact proper_newUser _ _ _ _
    · exact proper_changeEmail _ _ _
    · exact proper_changeEmail _ _ _
    · exact proper_newUser _ _ _ _
    · exact proper_newUser _ _ _ _
  have notDistinct : ¬ (userEntity "USER").Distinct world.rows := by
    intro distinct
    have same := distinct "email" (by simp [uniqueNames_userEntity]) (.string "a@x")
      (Item.single "PK" (.string "USER#2")) (Item.single "PK" (.string "USER#3"))
      (keysApart (Item.single "id" (.string "2")) _ (by decide +kernel))
      (keysApart (Item.single "id" (.string "3")) _ (by decide +kernel))
      (by decide +kernel) (by decide +kernel)
    exact absurd same (by decide)
  refine ⟨reachable, notDistinct, ?_⟩
  intro timely
  have guarded := (Entity.guarded_throughout_iff compile_users wellNamed_users
    (derives_userDeclaration _) plainlyNamed_users keysApart rfl reachable).2 timely
  have sane := Entity.sane_of_reachable enforces_users keysApart rfl reachable
  exact notDistinct (guarded _ sane.current).1

end SingleTable
