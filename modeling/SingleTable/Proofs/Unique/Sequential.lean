import SingleTable.Proofs.Unique.Course

/-!
# Records mirror items in sequential runs

As long as one job is done after the other, an item is still what it was when it was read.  So
each write believes what is true, and after every job, whether it succeeds or fails, the records
are exactly those of the values that items hold (`Entity.mirrored_of_sequential`).
-/

namespace SingleTable

/-! ## Runs of a dialogue -/

/-- A dialogue run to its end.  The service may behave differently at every call. -/
inductive Dialogue.Runs (table : Table) {α : Type} : Dialogue α → Rows → α → Rows → Prop where
  | done (result : α) (rows : Rows) : Runs table (.done result) rows result rows
  | ask (service : Service) {call : Call} {resume : Except Error call.Answer → Dialogue α}
      {rows after : Rows} {result : α}
      (rest : Runs table (resume (service.store table call rows).1) (service.store table call rows).2
        result after) : Runs table (.ask call resume) rows result after
  | pause (ceiling : Duration) {rest : Dialogue α} {rows after : Rows} {result : α}
      (runs : Runs table rest rows result after) : Runs table (.pause ceiling rest) rows result after

/-- What a dialogue comes to with a service that stays the same. -/
theorem Dialogue.runs_run (service : Service) (table : Table) {α : Type} (dialogue : Dialogue α)
    (rows : Rows) :
    Runs table dialogue rows (dialogue.run (service.store table) rows).1
      (dialogue.run (service.store table) rows).2 := by
  induction dialogue generalizing rows with
  | done result => exact .done result rows
  | ask call resume inductionHypothesis =>
    exact .ask service (inductionHypothesis (service.store table call rows).1 _)
  | pause ceiling rest inductionHypothesis => exact .pause ceiling (inductionHypothesis rows)

/-- The keys of what a dialogue tries to write while it is run. -/
def Dialogue.touched (service : Service) (table : Table) {α : Type} : Dialogue α → Rows → List Item
  | done _, _ => []
  | ask call resume, rows =>
    (call.operations?.getD []).filterMap (·.key? table) ++
      touched service table (resume (service.store table call rows).1) (service.store table call rows).2
  | pause _ rest, rows => touched service table rest rows

theorem Dialogue.run_of_not_touched {service : Service} {table : Table} {α : Type}
    {dialogue : Dialogue α} {rows : Rows} {key : Item}
    (notTouched : key ∉ dialogue.touched service table rows) :
    (dialogue.run (service.store table) rows).2 key = rows key := by
  induction dialogue generalizing rows with
  | done _ => rfl
  | pause _ _ inductionHypothesis => exact inductionHypothesis notTouched
  | ask call resume inductionHypothesis =>
    simp only [touched, List.mem_append, not_or] at notTouched
    rw [Dialogue.run, inductionHypothesis _ notTouched.2, Service.store_snd]
    cases written : service.write table rows call with
    | none => rfl
    | some after =>
      obtain ⟨operations, operations_eq, transacted⟩ := Service.write_eq_some written
      apply (Service.transact_each transacted).2
      intro operation isOperation isKey
      apply notTouched.1
      rw [operations_eq]
      exact List.mem_filterMap.2 ⟨operation, isOperation, isKey⟩

namespace Entity

variable {entity : Entity} {connection : Connection} {typeName : String}

/-- What holds between jobs. -/
structure Ordered (entity : Entity) (rows : Rows) : Prop where
  placed : rows.Placed entity.table
  textual : entity.Textual rows
  mirrored : entity.Mirrored rows

theorem ordered_empty (entity : Entity) : entity.Ordered Rows.empty := by
  constructor
  · intro key item isStored
    cases isStored
  · intro attr _ key value _ holds
    cases holds
  · constructor
    · intro record _
      constructor
      · intro isStored
        cases isStored
      · rintro ⟨attr, -, value, key, -, holds, -⟩
        cases holds
    · intro attr _ value key _ _ _ holds
      cases holds

/-- A lawful write keeps the order if what its client knows is still true. -/
theorem Lawful.ordered (enforces : entity.Enforces) {known : Rows → Prop} {call : Call}
    (lawful : entity.Lawful known call) {service : Service} {rows : Rows} (isKnown : known rows)
    (ordered : entity.Ordered rows) : entity.Ordered (service.store entity.table call rows).2 := by
  rw [Service.store_snd]
  cases written : service.write entity.table rows call with
  | none => exact ordered
  | some after =>
    obtain ⟨operations, operations_eq, transacted⟩ := Service.write_eq_some written
    obtain ⟨transfer, leads, -, expects⟩ := lawful service rows after operations operations_eq
      ordered.placed ordered.textual transacted
    constructor
    · exact Service.placed_of_write ordered.placed written
    · exact textual_of_leads ordered.textual leads
    · exact mirrored_of_leads enforces ordered.textual leads (expects isKnown) ordered.mirrored

/-- A dialogue of lawful writes that runs alone keeps the order. -/
theorem Course.ordered (enforces : entity.Enforces) {α : Type} {known : Rows → Prop}
    {dialogue : Dialogue α} (course : entity.Course known dialogue) {rows after : Rows} {result : α}
    (isKnown : known rows) (ordered : entity.Ordered rows)
    (runs : Dialogue.Runs entity.table dialogue rows result after) : entity.Ordered after := by
  induction course generalizing rows with
  | done known result =>
    cases runs
    exact ordered
  | read request resume live _ _ failedHypothesis answeredHypothesis =>
    cases runs with
    | ask service rest =>
      simp only [Service.store] at rest
      split at rest
      · exact failedHypothesis _ isKnown ordered rest
      · exact answeredHypothesis _ (ordered.textual.item live) rfl ordered rest
  | write call resume lawful _ answeredHypothesis =>
    cases runs with
    | ask service rest =>
      exact answeredHypothesis _ trivial (lawful.ordered enforces isKnown ordered) rest

/-! ## Runs of jobs -/

/-- The rows that a client can bring about by one proper job after the other. -/
inductive Sequential (entity : Entity) (α : Type) [Storable α] (connection : Connection)
    (typeName : String) : Rows → Prop where
  | start : Sequential entity α connection typeName Rows.empty
  | next {rows after : Rows} {result : Except Error Unit} (job : Job α) (proper : job.Proper entity)
      (sequential : Sequential entity α connection typeName rows)
      (runs : Dialogue.Runs entity.table (job.dialogue connection typeName) rows result after) :
      Sequential entity α connection typeName after

theorem Sequential.ordered {α : Type} [Storable α] (enforces : entity.Enforces) (keysApart : entity.KeysApart)
    (registered : connection.entity typeName = .ok entity) {rows : Rows}
    (sequential : entity.Sequential α connection typeName rows) : entity.Ordered rows := by
  induction sequential with
  | start => exact ordered_empty entity
  | next job proper _ runs inductionHypothesis =>
    have course := job.course enforces keysApart registered proper fun _ => True
    exact course.ordered enforces trivial inductionHypothesis runs

/-! ## Keys of items and of records -/

end Entity

/-- The template starts with fixed text, and that not with an underscore. -/
def Template.StartsApart (template : Template) : Prop :=
  ∃ source first fixed rest, template = .text source ∧
    Template.segments source.toList = .literal (first :: fixed) :: rest ∧ first ≠ '_'

namespace Entity

variable {entity : Entity} {connection : Connection} {typeName : String}

theorem interpolate_startsApart {template : Template} (startsApart : template.StartsApart)
    {mode : Completeness} {attributes : Item} {value : Value}
    (isValue : template.interpolate mode attributes = .ok value) :
    ∃ text, value = .string text ∧ text.toList.head? ≠ some '_' := by
  obtain ⟨source, first, fixed, rest, rfl, segments_eq, differs⟩ := startsApart
  rw [Template.interpolate, segments_eq] at isValue
  obtain ⟨rendered, isRendered, rfl⟩ := map_eq_ok.1 isValue
  obtain ⟨tail, -, answer⟩ := bind_eq_ok.1 isRendered
  obtain rfl := Except.ok.inj answer
  exact ⟨_, rfl, by simpa using differs⟩

/-- Keys that start apart are not those of records, which start with an underscore. -/
theorem keysApart_of_startsApart (enforces : entity.Enforces)
    (startsApart : entity.key.partition.template.StartsApart) : entity.KeysApart := by
  intro attributes key isKey isRecord
  obtain ⟨attr, -, text, rfl⟩ := (isRecord_iff enforces).1 isRecord
  obtain ⟨values, values_eq, key_eq⟩ := Key.resolve_eq_ok isKey
  have names_eq := KeyPart.names_of_resolveAll values_eq
  obtain ⟨value, isValue, rest⟩ := bind_eq_ok.1 values_eq
  obtain ⟨others, -, answer⟩ := bind_eq_ok.1 rest
  obtain rfl := Except.ok.inj answer
  obtain ⟨keyText, rfl, notMarked⟩ := interpolate_startsApart startsApart isValue
  have isPartition : entity.key.partition.attr ∈ entity.table.keyAttributes := by
    rw [← enforces.keyed]
    simp [Key.parts]
  have nodup : ((entity.key.partition.attr, Value.string keyText) :: others |>.map Prod.fst).Nodup := by
    have nodup := enforces.wellNamed.nodup_physical
    rw [physicalAttributes_eq] at nodup
    rw [names_eq]
    exact (List.nodup_append.1 nodup).1
  have stored : (entity.recordKey attr text).get? entity.key.partition.attr =
      some (.string (entity.recordText attr text)) := get?_recordKey isPartition
  rw [key_eq, NameMap.ofList, NameMap.get?_insertAll_of_mem nodup List.mem_cons_self] at stored
  have text_eq : keyText = entity.recordText attr text := Value.string.inj (Option.some.inj stored)
  apply notMarked
  rw [text_eq, toList_recordText, String.toList_append, String.toList_append]
  rfl

/-- After any run of creates, updates and deletes one after the other, each succeeding or failing,
the records are exactly those of the unique values that items hold, and each value is held by one
item. -/
theorem mirrored_of_sequential {α : Type} [Storable α] {declaration : Declaration} {defaultTable : Option Table}
    (compiled : declaration.compile defaultTable = .ok entity) (wellNamed : entity.WellNamed)
    (derives : declaration.DerivesRecords) (plainlyNamed : declaration.PlainlyNamed)
    (startsApart : declaration.key.partition.StartsApart)
    (registered : connection.entity typeName = .ok entity) {rows : Rows}
    (sequential : entity.Sequential α connection typeName rows) : entity.Mirrored rows := by
  have enforces := enforces_of_compile compiled wellNamed derives plainlyNamed
  have laysOut := Declaration.laysOut_of_compile compiled
  have partition_eq := (Declaration.keyOn_eq_ok laysOut.key).1
  have startsApart : entity.key.partition.template.StartsApart := by rwa [partition_eq]
  exact (sequential.ordered enforces (keysApart_of_startsApart enforces startsApart) registered).mirrored

end Entity

/-! ## Users with emails -/

def Job.runAll {α : Type} [Storable α] (service : Service) (table : Table) (connection : Connection)
    (typeName : String) (jobs : List (Job α)) : Rows :=
  jobs.foldl
    (fun rows job => ((job.dialogue connection typeName).run (service.store table) rows).2) Rows.empty

theorem Job.sequential_runAll {α : Type} [Storable α] {entity : Entity} {connection : Connection}
    {typeName : String} (service : Service) {jobs : List (Job α)}
    (areProper : ∀ job ∈ jobs, job.Proper entity) :
    entity.Sequential α connection typeName
      (Job.runAll service entity.table connection typeName jobs) := by
  induction jobs using List.reverseRecOn with
  | nil => exact .start
  | append_singleton jobs job inductionHypothesis =>
    rw [Job.runAll, List.foldl_append]
    have proper := areProper job (by simp)
    have sequential := inductionHypothesis fun other isMember => areProper other (by simp [isMember])
    exact .next job proper sequential (Dialogue.runs_run service _ _ _)

def userDeclaration (name : String) : Declaration where
  name := name
  table := some usersTable
  key := ⟨.text "USER#\x7b\x7bid\x7d\x7d", none⟩
  attributes := [
    { name := "id", type := .string },
    { name := "NICK", type := .string },
    { name := "email", type := .string, unique := some .derived }]

def userEntity (name : String) : Entity where
  name := name
  table := usersTable
  attributes := (userDeclaration name).attributes
  key := ⟨⟨"PK", .text "USER#\x7b\x7bid\x7d\x7d"⟩, none⟩
  indexes := []
  uniques := [⟨"email", ⟨⟨"PK", Declaration.derivedUniqueTemplate name "email"⟩, none⟩⟩]

def userConnection (name : String) : Connection where
  registry := ⟨[⟨"User", userEntity name⟩]⟩

def newUser (id nick email : String) : Job Document :=
  .create (fun _ => ⟨0, fun _ => 0⟩)
    (.object [("NICK", .string nick), ("email", .string email), ("id", .string id)]) {}

def changeEmail (id email : String) : Job Document :=
  .update (fun _ => ⟨0, fun _ => 0⟩) (Item.single "id" (.string id))
    (UpdateBody.ofList [("email", .set (.string email))]) {}

theorem uniqueNames_userEntity (name : String) : (userEntity name).uniqueNames = ["email"] := rfl

theorem proper_newUser (name id nick email : String) :
    (newUser id nick email).Proper (userEntity name) := by
  refine ⟨rfl, by simp, ?_⟩
  rintro _ ⟨⟩ attr isUnique value holds
  obtain rfl : attr = "email" := by simpa [uniqueNames_userEntity] using isUnique
  have value_eq : Value.string email = value := by
    simp [Item.present?, Entity.applyDefaults, userEntity, userDeclaration, Entity.fillAll,
      Value.ofMembers, Value.ofDocument, NameMap.contains, NameMap.get?_filter, NameMap.ofList,
      NameMap.insertAll, NameMap.get?_insert, Value.isNull] at holds
    exact holds.1
  exact ⟨email, value_eq.symm⟩

theorem proper_changeEmail (name id email : String) :
    (changeEmail id email).Proper (userEntity name) := by
  constructor
  · intro entry isEntry
    obtain rfl : entry = ("email", .set (.string email)) := by
      simpa [UpdateBody.ofList, UpdateBody.pushAll, UpdateBody.push, UpdateBody.pushAction] using isEntry
    have isWord : Grammar.IsWord "email" := by decide
    refine ⟨Path.isPlain_of_isWord isWord, ?_⟩
    rw [Path.top_of_isWord isWord]
    simp [Entity.attributeNames, userEntity, userDeclaration]
  · intro attr isUnique value found _
    obtain rfl : attr = "email" := by simpa [uniqueNames_userEntity] using isUnique
    have value_eq : Value.string email = value := by
      simpa [Entity.withGenerated, userEntity, userDeclaration, UpdateBody.get?, UpdateBody.ofList,
        UpdateBody.pushAll, UpdateBody.push, UpdateBody.pushAction] using found
    exact ⟨email, value_eq.symm⟩

theorem derives_userDeclaration (name : String) : (userDeclaration name).DerivesRecords := by
  have unique_eq : (userDeclaration name).uniqueAttributes =
      [{ name := "email", type := .string, unique := some .derived }] := rfl
  constructor
  · intro attr isAttribute rule isRule
    simp only [userDeclaration, List.mem_cons, List.not_mem_nil, or_false] at isAttribute
    rcases isAttribute with rfl | rfl | rfl
    · cases isRule
    · cases isRule
    · exact (Option.some.inj isRule).symm
  · rw [unique_eq]
    simp
  · rw [unique_eq]
    simp

theorem startsApart_userDeclaration (name : String) :
    (userDeclaration name).key.partition.StartsApart :=
  ⟨"USER#\x7b\x7bid\x7d\x7d", 'U', "SER#".toList, [.placeholder "id".toList], rfl, by decide +kernel,
    by decide⟩

theorem compile_users : (userDeclaration "USER").compile none = .ok (userEntity "USER") := by
  with_unfolding_all rfl

theorem wellNamed_users : (userEntity "USER").WellNamed := ⟨by decide, by decide, by decide⟩

theorem plainlyNamed_users : (userDeclaration "USER").PlainlyNamed := by
  unfold Declaration.PlainlyNamed
  decide +kernel

theorem enforces_users : (userEntity "USER").Enforces :=
  Entity.enforces_of_compile compile_users wellNamed_users (derives_userDeclaration _)
    plainlyNamed_users

/-- An email that is changed takes its record along. -/
theorem mirrored_after_change :
    let rows := Job.runAll default usersTable (userConnection "USER") "User"
      [newUser "1" "ann" "a@x", changeEmail "1" "b@x"]
    (userEntity "USER").Mirrored rows ∧
      (rows ((userEntity "USER").recordKey "email" "b@x")).isSome = true ∧
      (rows ((userEntity "USER").recordKey "email" "a@x")).isSome = false := by
  intro rows
  have sequential : (userEntity "USER").Sequential Document (userConnection "USER") "User" rows := by
    apply Job.sequential_runAll
    intro job isJob
    simp only [List.mem_cons, List.not_mem_nil, or_false] at isJob
    rcases isJob with rfl | rfl
    · exact proper_newUser _ _ _ _
    · exact proper_changeEmail _ _ _
  refine ⟨?_, by decide +kernel, by decide +kernel⟩
  exact Entity.mirrored_of_sequential compile_users wellNamed_users (derives_userDeclaration _)
    plainlyNamed_users (startsApart_userDeclaration _) rfl sequential

/-- If the name of the entity is taken for a placeholder, the record of an email alone cannot be told,
so no key is that of a record. -/
theorem live_of_placeholder (key : Item) : (userEntity "\x7b\x7bNICK\x7d\x7d").Live key := by
  rintro ⟨attr, value, isRecord⟩
  unfold Entity.uniqueRecord at isRecord
  split at isRecord
  · cases isRecord
  · next unique found =>
    have isMember : unique ∈ (userEntity "\x7b\x7bNICK\x7d\x7d").uniques :=
      List.mem_of_find?_eq_some found
    obtain rfl : unique.attr = attr := by simpa using List.find?_some found
    obtain rfl := List.mem_singleton.1 isMember
    obtain ⟨record, resolved, -⟩ := map_eq_ok.1 isRecord
    obtain ⟨values, values_eq, -⟩ := Key.resolve_eq_ok resolved
    obtain ⟨text, isText, -⟩ := bind_eq_ok.1 values_eq
    have isName : "NICK" ∈
        (Declaration.derivedUniqueTemplate "\x7b\x7bNICK\x7d\x7d" "email").names := by
      decide +kernel
    obtain ⟨nick, isPresent, -⟩ := Template.present_of_interpolate isText isName
    simp [Item.present?, Item.single, NameMap.ofList, NameMap.insertAll, NameMap.get?_insert]
      at isPresent

/-- If the name of the entity is taken for a placeholder, the records say something else than the
email, and two users can have the same. -/
theorem not_mirrored_of_placeholder :
    let entity := userEntity "\x7b\x7bNICK\x7d\x7d"
    let rows := Job.runAll default usersTable (userConnection entity.name) "User"
      [newUser "1" "ann" "a@x", newUser "2" "bob" "a@x"]
    (userDeclaration entity.name).compile none = .ok entity ∧ entity.WellNamed ∧
      (userDeclaration entity.name).DerivesRecords ∧
      (userDeclaration entity.name).key.partition.StartsApart ∧
      (userConnection entity.name).entity "User" = .ok entity ∧
      entity.Sequential Document (userConnection entity.name) "User" rows ∧ ¬ entity.Mirrored rows := by
  intro entity rows
  have sequential : entity.Sequential Document (userConnection entity.name) "User" rows := by
    apply Job.sequential_runAll
    intro job isJob
    simp only [List.mem_cons, List.not_mem_nil, or_false] at isJob
    rcases isJob with rfl | rfl
    · exact proper_newUser _ _ _ _
    · exact proper_newUser _ _ _ _
  have compiled : (userDeclaration "\x7b\x7bNICK\x7d\x7d").compile none =
      .ok (userEntity "\x7b\x7bNICK\x7d\x7d") := by
    with_unfolding_all rfl
  refine ⟨compiled, ⟨by decide, by decide, by decide⟩, derives_userDeclaration _,
    startsApart_userDeclaration _, rfl, sequential, ?_⟩
  intro mirrored
  have same := mirrored.distinct "email" (by simp [entity, uniqueNames_userEntity]) (.string "a@x")
    (Item.single "PK" (.string "USER#1")) (Item.single "PK" (.string "USER#2"))
    (live_of_placeholder _) (live_of_placeholder _)
    (by decide +kernel) (by decide +kernel)
  exact absurd same (by decide)

/-- A user that replaces one who exists: the condition on the path `PK` closes the guard of the
create and opens an alternative to it. -/
def replaceUser (id nick email : String) : Job Document :=
  .create (fun _ => ⟨0, fun _ => 0⟩)
    (.object [("NICK", .string nick), ("email", .string email), ("id", .string id)])
    { condition := some (.present "PK[0])) OR (attribute_exists(#CE_PK") }

/-- The email of the user who was replaced keeps its record. -/
theorem not_mirrored_of_path :
    ¬ (userEntity "USER").Mirrored (Job.runAll default usersTable (userConnection "USER") "User"
      [newUser "1" "ann" "a@x", replaceUser "1" "bob" "b@x"]) := by
  intro mirrored
  have isUnique : "email" ∈ (userEntity "USER").uniqueNames := by simp [uniqueNames_userEntity]
  have isRecord := fun text => Entity.uniqueRecord_string enforces_users isUnique text
  obtain ⟨attr, isAttr, value, key, live, holds, same⟩ :=
    (mirrored.records _ ⟨_, _, isRecord "a@x"⟩).1 (by decide +kernel)
  obtain rfl : attr = "email" := by simpa [uniqueNames_userEntity] using isAttr
  let first := (newUser "1" "ann" "a@x").dialogue (userConnection "USER") "User"
  let second := (replaceUser "1" "bob" "b@x").dialogue (userConnection "USER") "User"
  let rows := (first.run (Service.store default usersTable) Rows.empty).2
  have touchedFirst : first.touched default usersTable Rows.empty =
      [.single "PK" (.string "USER#1"), (userEntity "USER").recordKey "email" "a@x"] := by
    decide +kernel
  have touchedSecond : second.touched default usersTable rows =
      [.single "PK" (.string "USER#1"), (userEntity "USER").recordKey "email" "b@x"] := by
    decide +kernel
  by_cases isItem : key = .single "PK" (.string "USER#1")
  · -- the item has the new email by now
    subst isItem
    have holdsNew : Rows.held (Job.runAll default usersTable (userConnection "USER") "User"
        [newUser "1" "ann" "a@x", replaceUser "1" "bob" "b@x"]) (.single "PK" (.string "USER#1"))
        "email" = some (.string "b@x") := by
      decide +kernel
    rw [holdsNew] at holds
    obtain rfl := Option.some.inj holds
    rw [isRecord "b@x"] at same
    exact absurd (Option.some.inj (Except.ok.inj same)) (by decide +kernel)
  · have notTouched : key ∉ first.touched default usersTable Rows.empty ∧
        key ∉ second.touched default usersTable rows := by
      rw [touchedFirst, touchedSecond]
      simp only [List.mem_cons, List.not_mem_nil, or_false, not_or]
      refine ⟨⟨isItem, ?_⟩, isItem, ?_⟩
      · rintro rfl
        exact live ⟨_, _, isRecord "a@x"⟩
      · rintro rfl
        exact live ⟨_, _, isRecord "b@x"⟩
    have isEmpty : (second.run (Service.store default usersTable) rows).2 key = none := by
      rw [Dialogue.run_of_not_touched notTouched.2]
      exact Dialogue.run_of_not_touched notTouched.1
    have holds : ((second.run (Service.store default usersTable) rows).2 key).bind
        (·.present? "email") = some value := holds
    rw [isEmpty] at holds
    cases holds

end SingleTable
