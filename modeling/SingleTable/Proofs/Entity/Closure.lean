import SingleTable.Proofs.Condition.Closure
import SingleTable.Proofs.Entity.Guards
import SingleTable.Proofs.Index.Impact
import SingleTable.Proofs.Update.Closure

/-!
# Requests are closed over their placeholders

The store refuses a request that mentions a placeholder it does not bind, or binds one that it
does not mention.  An entity asks nothing else of its expressions than to be compiled and taken
in, so a request binds what its texts mention (`Entity.Ask.serves`).  The exception are the names
of an update that removes list elements and lists no index: they are bound, and whether they are
mentioned is up to the rest of the update.
-/

namespace SingleTable

open Grammar

/-! ## The texts of a request -/

namespace Grammar

def allPlaceholders? (texts : List String) : Option (List Placeholder) :=
  (texts.mapM placeholders?).map List.flatten

theorem allPlaceholders?_append {first second : List String} {inFirst inSecond : List Placeholder}
    (found : allPlaceholders? first = some inFirst)
    (foundSecond : allPlaceholders? second = some inSecond) :
    allPlaceholders? (first ++ second) = some (inFirst ++ inSecond) := by
  obtain ⟨lists, areLists, rfl⟩ := Option.map_eq_some_iff.1 found
  obtain ⟨others, areOthers, rfl⟩ := Option.map_eq_some_iff.1 foundSecond
  simp [allPlaceholders?, List.mapM_append, areLists, areOthers]

theorem allPlaceholders?_singleton {text : String} {mentioned : List Placeholder}
    (mentions : Mentions text mentioned) : allPlaceholders? [text] = some mentioned := by
  have found : placeholders? text = some mentioned := mentions
  simp [allPlaceholders?, found]

end Grammar

/-- What is bound is what some texts mention, and some placeholders that they do not need. -/
def Bindings.Serves (bindings : Bindings) (texts : List String) (idle : List Placeholder) : Prop :=
  ∃ mentioned, allPlaceholders? texts = some mentioned ∧
    ∀ placeholder, bindings.Binds placeholder ↔ placeholder ∈ mentioned ∨ placeholder ∈ idle

namespace Bindings.Serves

variable {before after : Bindings} {texts : List String} {idle added : List Placeholder}

theorem nothing : Bindings.Serves {} [] [] := ⟨[], rfl, by simp⟩

/-- An expression that is taken in adds its text and what it binds. -/
theorem absorb (serves : before.Serves texts idle) {compiled : CompiledExpression}
    (accounts : compiled.bindings.Accounts compiled.text added) {text : Option String}
    (run : Succeeds (Binding.absorb (some compiled)) before text after) :
    after.Serves (texts ++ text.toList) (idle ++ added) := by
  obtain ⟨mentioned, found, binds⟩ := serves
  obtain ⟨own, mentions, adds⟩ := accounts
  obtain ⟨⟨⟩, _, taken, answer⟩ := succeeds_bind.1 run
  obtain ⟨rfl, rfl⟩ := succeeds_pure.1 answer
  refine ⟨mentioned ++ own, allPlaceholders?_append found (allPlaceholders?_singleton mentions), ?_⟩
  intro placeholder
  rw [Binding.adds_all adds taken, binds]
  simp only [List.mem_append]
  exact or_or_or_comm

theorem absorbCompiled (serves : before.Serves texts idle)
    {outcome : Except Error (Option CompiledExpression)}
    (accounts : ∀ compiled, outcome = .ok (some compiled) →
      compiled.bindings.Accounts compiled.text []) {text : Option String}
    (run : Succeeds (Binding.absorbCompiled outcome) before text after) :
    after.Serves (texts ++ text.toList) idle := by
  match outcome, run with
  | .error error, run => exact absurd run not_succeeds_throw
  | .ok none, run =>
    obtain ⟨rfl, rfl⟩ := succeeds_pure.1 run
    simpa using serves
  | .ok (some compiled), run => simpa using serves.absorb (accounts compiled rfl) run

/-- Expressions that bind what they mention are taken in one after another. -/
theorem takes (serves : before.Serves texts idle)
    {outcomes : List (Except Error (Option CompiledExpression))} {taken : List (Option String)}
    (takes : Takes before outcomes taken after)
    (accounts : ∀ outcome ∈ outcomes, ∀ compiled, outcome = .ok (some compiled) →
      compiled.bindings.Accounts compiled.text []) :
    after.Serves (texts ++ taken.flatMap Option.toList) idle := by
  induction takes generalizing texts with
  | nil => simpa using serves
  | cons first _ inductionHypothesis =>
    have servesFirst := serves.absorbCompiled (accounts _ (by simp)) first
    have servesAll := inductionHypothesis servesFirst fun other isMember =>
      accounts other (by simp [isMember])
    simpa [List.append_assoc] using servesAll

/-- A text that was not made is as good as an empty one. -/
theorem getD {text : Option String} (serves : before.Serves (text.toList ++ texts) idle) :
    before.Serves (text.getD "" :: texts) idle := by
  cases text with
  | some text => exact serves
  | none =>
    obtain ⟨mentioned, found, binds⟩ := serves
    exact ⟨mentioned, allPlaceholders?_append (allPlaceholders?_singleton mentions_nothing) found, binds⟩

end Bindings.Serves

/-- The texts can be read, and what they mention is what is bound. -/
def Request.IsClosed (request : Request) : Prop :=
  ∃ mentioned, allPlaceholders? request.texts = some mentioned ∧
    ∀ placeholder, request.bindings.Binds placeholder ↔ placeholder ∈ mentioned

/-! ## The paths of an entity -/

namespace Entity

variable {entity : Entity}

/-- The names that an entity uses as paths: the keys of its table and of the indexes of the table,
the attributes that its templates give values to, and those it declares. -/
def ownPaths (entity : Entity) : List String :=
  entity.table.keyAttributes ++ entity.table.indexes.entries.map (·.2.sortKey) ++
    entity.physicalAttributes ++ entity.attributeNames

theorem mem_ownPaths_of_key {name : String} (isKey : name ∈ entity.table.keyAttributes) :
    name ∈ entity.ownPaths := by simp [ownPaths, isKey]

theorem mem_ownPaths_of_physical {name : String} (isPhysical : name ∈ entity.physicalAttributes) :
    name ∈ entity.ownPaths := by simp [ownPaths, isPhysical]

theorem mem_ownPaths_of_attribute {name : String} (isDeclared : name ∈ entity.attributeNames) :
    name ∈ entity.ownPaths := by simp [ownPaths, isDeclared]

theorem mem_ownPaths_of_index {name sortKey partitionKey : String}
    (found : entity.table.indexKeyAttributes? name = some (partitionKey, sortKey)) :
    sortKey ∈ entity.ownPaths := by
  obtain ⟨definition, isIndex, pair_eq⟩ := Option.map_eq_some_iff.1 found
  obtain ⟨-, rfl⟩ := Prod.mk.inj pair_eq
  have isEntry := NameMap.get?_eq_some_iff.1 isIndex
  have isSortKey : definition.sortKey ∈ entity.table.indexes.entries.map (·.2.sortKey) :=
    List.mem_map.2 ⟨_, isEntry, rfl⟩
  simp only [ownPaths, List.mem_append]
  exact .inl (.inl (.inr isSortKey))

/-- A query goes by names of the entity. -/
theorem mem_ownPaths_of_queryKey {index : Option String} {part : KeyPart} {sortKey : Option String}
    (isKey : entity.queryKey index = .ok (part, sortKey)) :
    part.attr ∈ entity.ownPaths ∧ ∀ name ∈ sortKey, name ∈ entity.ownPaths := by
  have isPart : ∀ part ∈ entity.parts, part.attr ∈ entity.ownPaths := fun part isPart =>
    mem_ownPaths_of_physical (List.mem_map.2 ⟨part, isPart, rfl⟩)
  have isPartition : entity.key.partition ∈ entity.parts := by simp [parts, Key.parts]
  cases index with
  | none =>
    obtain ⟨rfl, rfl⟩ := Prod.mk.inj (Except.ok.inj isKey)
    refine ⟨isPart _ isPartition, ?_⟩
    intro name isName
    exact mem_ownPaths_of_key (by simp [Table.keyAttributes, Option.mem_def.1 isName])
  | some index =>
    unfold queryKey at isKey
    dsimp only at isKey
    split at isKey
    · next partitionKey sort found =>
      split at isKey
      · next layout isLayout =>
        obtain ⟨rfl, rfl⟩ := Prod.mk.inj (Except.ok.inj isKey)
        refine ⟨isPart _ ?_, ?_⟩
        · -- a local index has the partition key of the table
          cases partition_eq : layout.partition with
          | none => exact isPartition
          | some partition =>
            have isMember : layout ∈ entity.indexes := List.mem_of_find?_eq_some isLayout
            exact mem_parts_of_index isMember (by simp [IndexLayout.parts, partition_eq])
        · rintro name ⟨⟩
          exact mem_ownPaths_of_index found
      · cases isKey
    · cases isKey

/-! ## Requests one by one -/

theorem plain_marker : Path.IsPlain entityMarker := Path.isPlain_of_isWord (by decide)

theorem accounts_projectionOf {select : Option (List String)}
    (plain : ∀ path ∈ select.getD [], Path.IsPlain path) {compiled : CompiledExpression}
    (compiles : projectionOf select = .ok (some compiled)) :
    compiled.bindings.Accounts compiled.text [] := by
  cases select with
  | none => cases compiles
  | some paths => exact Projection.accounts_of_compile plain compiles

/-- The marker is read besides the paths that are selected. -/
theorem plain_withMarker {select : Option (List String)}
    (plain : ∀ path ∈ select.getD [], Path.IsPlain path) :
    ∀ path ∈ (select.map withMarker).getD [], Path.IsPlain path := by
  intro path isPath
  cases select with
  | none => cases isPath
  | some paths =>
    simp only [Option.map_some, Option.getD_some, withMarker] at isPath
    split at isPath
    · exact plain path isPath
    · rcases List.mem_append.1 isPath with isPath | isMarker
      · exact plain path isPath
      · rw [List.mem_singleton.1 isMarker]
        exact plain_marker

theorem plain_ownItems {condition : Option Condition}
    (plain : ∀ asked ∈ condition, ∀ path ∈ asked.paths, Path.IsPlain path) :
    ∀ path ∈ (entity.ownItems condition).paths, Path.IsPlain path := by
  refine Condition.plain_andOption ?_ plain
  intro path isPath
  rw [List.mem_singleton.1 isPath]
  exact plain_marker

theorem serves_writeCondition {condition : Option Condition}
    (plain : ∀ asked ∈ condition, ∀ path ∈ asked.paths, Path.IsPlain path)
    {text : Option String} {bindings : Bindings}
    (written : writeCondition condition = .ok (text, bindings)) :
    bindings.Serves text.toList [] := by
  have serves := Bindings.Serves.nothing.takes (takes_of_writeCondition written) (by
    intro outcome isOutcome compiled compiles
    rw [List.mem_singleton.1 isOutcome] at compiles
    cases condition with
    | none => cases compiles
    | some condition => exact Condition.accounts_of_compile (plain condition rfl) compiles)
  simpa using serves

section Plain

variable (plainOwn : ∀ path ∈ entity.ownPaths, Path.IsPlain path)
include plainOwn

theorem plain_keyAbsent : ∀ path ∈ entity.keyAbsent.paths, Path.IsPlain path := by
  rw [paths_keyAbsent]
  exact fun name isKey => plainOwn name (mem_ownPaths_of_key isKey)

theorem serves_claim {record : Item} {operation : WriteOperation}
    (claimed : entity.claim record = .ok operation) :
    (Request.write operation).bindings.Serves (Request.write operation).texts [] := by
  obtain ⟨request, rfl, -, written⟩ := put_of_claim claimed
  refine serves_writeCondition ?_ written
  rintro condition ⟨⟩
  exact plain_keyAbsent plainOwn

theorem serves_create {draw : String → Moment} {attributes : Item} {options : CreateOptions}
    (plain : ∀ condition ∈ options.condition, ∀ path ∈ condition.paths, Path.IsPlain path)
    {put : PutRequest} {claims : List WriteOperation}
    (writes : entity.WritesCreate draw attributes options put claims) :
    ∀ operation ∈ WriteOperation.put put :: claims,
      (Request.write operation).bindings.Serves (Request.write operation).texts [] := by
  intro operation isMember
  rcases List.mem_cons.1 isMember with rfl | isClaim
  · refine serves_writeCondition ?_ writes.condition
    unfold createCondition
    split
    · exact plain
    · rintro condition ⟨⟩
      exact Condition.plain_andOption (plain_keyAbsent plainOwn) plain
  · obtain ⟨records, -, claimed⟩ := writes.claims
    obtain ⟨record, -, isClaimed⟩ := exists_of_forall₂ claimed isClaim
    exact serves_claim plainOwn isClaimed

end Plain

theorem serves_get {attributes : Item} {options : GetOptions} {request : GetRequest}
    (plain : ∀ path ∈ options.select.getD [], Path.IsPlain path)
    (asked : entity.getRequest attributes options = .ok request) :
    request.bindings.Serves request.projection.toList [] := by
  have serves := Bindings.Serves.nothing.takes (getRequest_eq_ok asked) (by
    intro outcome isOutcome compiled compiles
    rw [List.mem_singleton.1 isOutcome] at compiles
    exact accounts_projectionOf plain compiles)
  simpa using serves

theorem serves_scan {options : ScanOptions} {request : ScanRequest}
    (plain : ∀ condition ∈ options.condition, ∀ path ∈ condition.paths, Path.IsPlain path)
    (plainSelect : ∀ path ∈ options.select.getD [], Path.IsPlain path)
    (asked : entity.scanRequest options = .ok request) :
    request.bindings.Serves (request.filter.toList ++ request.projection.toList) [] := by
  have serves := Bindings.Serves.nothing.takes (scanRequest_eq_ok asked) (by
    intro outcome isOutcome compiled compiles
    simp only [List.mem_cons, List.not_mem_nil, or_false] at isOutcome
    rcases isOutcome with rfl | rfl
    · exact Condition.accounts_of_compile (plain_ownItems plain) compiles
    · exact accounts_projectionOf (plain_withMarker plainSelect) compiles)
  simpa using serves

theorem serves_query (plainOwn : ∀ path ∈ entity.ownPaths, Path.IsPlain path)
    {partition : Partition} {options : QueryOptions} {request : QueryRequest}
    (plain : ∀ condition ∈ options.condition, ∀ path ∈ condition.paths, Path.IsPlain path)
    (plainSelect : ∀ path ∈ options.select.getD [], Path.IsPlain path)
    (asked : entity.queryRequest partition options = .ok request) :
    request.bindings.Serves
      (request.keyCondition :: (request.filter.toList ++ request.projection.toList)) [] := by
  obtain ⟨part, sortKey, value, sort, asks⟩ := queryRequest_eq_ok asked
  obtain ⟨keyCondition, text_eq, takes⟩ := asks.expressions
  obtain ⟨isOwnPart, isOwnSort⟩ := mem_ownPaths_of_queryKey asks.isKey
  have plainKey : ∀ path ∈ KeyCondition.paths ⟨part.attr, value, sort⟩, Path.IsPlain path := by
    intro path isPath
    rcases List.mem_cons.1 isPath with rfl | isSortPath
    · exact plainOwn _ isOwnPart
    · obtain ⟨tested, isTested, rfl⟩ := List.mem_map.1 isSortPath
      exact plainOwn _ (isOwnSort _ (sortKey_of_sortTest asks.isSort (Option.mem_toList.1 isTested)))
  have serves := Bindings.Serves.nothing.takes takes (by
    intro outcome isOutcome compiled compiles
    simp only [List.mem_cons, List.not_mem_nil, or_false] at isOutcome
    rcases isOutcome with rfl | rfl | rfl
    · exact KeyCondition.accounts_of_compile plainKey compiles
    · exact Condition.accounts_of_compile (plain_ownItems plain) compiles
    · exact accounts_projectionOf (plain_withMarker plainSelect) compiles)
  rw [text_eq]
  exact Bindings.Serves.getD (by simpa using serves)

/-- Generated values and changes of keys are never idle. -/
theorem mem_idlePlaceholders_all {draw : String → Moment} {body : UpdateBody} {changes : KeyChanges}
    {placeholder : Placeholder} :
    placeholder ∈ idlePlaceholders ((entity.withGenerated draw body).actions ++ changes.actions) ↔
      placeholder ∈ idlePlaceholders body.actions := by
  rw [mem_idlePlaceholders, mem_idlePlaceholders]
  constructor
  · rintro ⟨entry, isMember, isIdle, isPlaceholder⟩
    rcases List.mem_append.1 isMember with isMember | isChange
    · -- what is generated or derived assigns or removes, and both write an item
      rcases mem_withGenerated isMember with isMember | ⟨attr, -, rule, -, -, -, rfl⟩
      · exact ⟨entry, isMember, isIdle, isPlaceholder⟩
      · cases isIdle
    · rcases List.mem_append.1 isChange with isSet | isRemove
      · obtain ⟨_, -, rfl⟩ := List.mem_map.1 isSet
        cases isIdle
      · obtain ⟨_, -, rfl⟩ := List.mem_map.1 isRemove
        cases isIdle
  · rintro ⟨entry, isMember, isIdle, isPlaceholder⟩
    exact ⟨entry, List.mem_append.2 (.inl (mem_withGenerated_of_mem draw isMember)), isIdle,
      isPlaceholder⟩

theorem accounts_updateClauses {body : UpdateBody} {changes : KeyChanges} {clauses : UpdateClauses}
    (written : updateClauses body changes = .ok clauses)
    (plain : ∀ entry ∈ body.actions ++ changes.actions, Path.IsPlain entry.1) :
    clauses.Accounts (idlePlaceholders (body.actions ++ changes.actions)) := by
  obtain ⟨own, isOwn, run⟩ := updateClauses_eq_ok written
  have accounts := UpdateBody.clauses_accounts isOwn fun entry isMember =>
    plain entry (List.mem_append.2 (.inl isMember))
  have accountsAll := Updating.accounts_applyAll (fun entry isMember =>
    plain entry (List.mem_append.2 (.inr isMember))) accounts run
  simpa [idlePlaceholders] using accountsAll

section Plain

variable (plainOwn : ∀ path ∈ entity.ownPaths, Path.IsPlain path)
include plainOwn

/-- What an update changes besides its body are attributes of the entity. -/
theorem plain_update {draw : String → Moment} {body : UpdateBody} {context : Item}
    {changes : KeyChanges} (plainBody : ∀ entry ∈ body.actions, Path.IsPlain entry.1)
    (affected : entity.affectedIndexes (entity.withGenerated draw body) context = .ok changes) :
    ∀ entry ∈ (entity.withGenerated draw body).actions ++ changes.actions,
      Path.IsPlain entry.1 := by
  intro entry isMember
  rcases List.mem_append.1 isMember with isMember | isChange
  · rcases mem_withGenerated isMember with isMember | ⟨attr, isAttribute, rule, -, -, -, rfl⟩
    · exact plainBody entry isMember
    · exact plainOwn _ (mem_ownPaths_of_attribute (List.mem_map.2 ⟨attr, isAttribute, rfl⟩))
  · have isIndex := mem_indexAttributes_of_affected affected isChange
    refine plainOwn _ (mem_ownPaths_of_physical ?_)
    rw [physicalAttributes_eq]
    exact List.mem_append.2 (.inr isIndex)

/-- An update binds what it mentions, and the names of the actions that write nothing. -/
theorem serves_update {draw : String → Moment} {attributes : Item} {body : UpdateBody}
    {options : UpdateOptions} {write : PendingWrite} {request : UpdateRequest} {changes : KeyChanges}
    {changed : List (String × Option Value)}
    (plainBody : ∀ entry ∈ body.actions, Path.IsPlain entry.1)
    (plain : ∀ condition ∈ options.condition, ∀ path ∈ condition.paths, Path.IsPlain path)
    (writes : entity.WritesUpdate draw attributes body options write request changes changed) :
    request.bindings.Serves (request.update :: request.condition.toList)
      (idlePlaceholders body.actions) := by
  obtain ⟨clauses, compiled, areClauses, compiles, -, takes⟩ := writes.expressions
  have plainAll := plain_update plainOwn plainBody writes.affected
  have accounts := UpdateClauses.accounts_of_compile (accounts_updateClauses areClauses plainAll) compiles
  have plainKey : ∀ path ∈ entity.keyPresent.paths, Path.IsPlain path := by
    intro path isPath
    rw [List.mem_singleton.1 isPath]
    exact plainOwn _ (mem_ownPaths_of_key (by simp [Table.keyAttributes]))
  cases takes with
  | cons first others =>
    have serves := (Bindings.Serves.nothing.absorb accounts first).takes others (by
      intro outcome isOutcome expression compiled
      rw [List.mem_singleton.1 isOutcome] at compiled
      exact Condition.accounts_of_compile (Condition.plain_andOption plainKey plain) compiled)
    obtain ⟨mentioned, found, binds⟩ := serves
    exact ⟨mentioned, by simpa using found, fun placeholder => by
      rw [binds, List.nil_append, mem_idlePlaceholders_all]⟩

end Plain

/-! ## All requests -/

namespace Ask

def idle : Ask → Request → List Placeholder
  | update call _, .write (.update _) => idlePlaceholders call.body.actions
  | _, _ => []

variable {entity : Entity}

/-- A request binds the placeholders that its texts mention, and the names of an update's actions
that write nothing; it binds no others, and every text can be read. -/
theorem serves (plainOwn : ∀ path ∈ entity.ownPaths, Path.IsPlain path) {ask : Ask}
    (plain : ∀ path ∈ ask.paths, Path.IsPlain path) {requests : List Request}
    (asked : ask.requests entity = .ok requests) {request : Request} (isMember : request ∈ requests) :
    request.bindings.Serves request.texts (ask.idle request) := by
  obtain ⟨plainAsked, plainOthers⟩ := List.forall_mem_append.1 plain
  have plainCondition := plain_condition plainAsked
  -- one case for each way in which requests are made; each has its own texts
  cases makes_of_requests asked with
  | create writes =>
    rw [← List.map_cons] at isMember
    obtain ⟨operation, isOperation, rfl⟩ := List.mem_map.1 isMember
    exact serves_create plainOwn plainCondition writes operation isOperation
  | update writes resolved =>
    obtain ⟨operation, isOperation, rfl⟩ := List.mem_map.1 isMember
    rcases writes.mem_operations resolved isOperation with rfl | ⟨record, claimed⟩ | ⟨record, rfl⟩
    · exact serves_update plainOwn (List.forall_mem_map.1 plainOthers) plainCondition writes
    · -- a claim is a put, which has nothing idle
      obtain ⟨request, rfl, -⟩ := put_of_claim claimed
      exact serves_claim plainOwn claimed
    · exact .nothing
  | delete isCondition each =>
    obtain ⟨operation, isOperation, rfl⟩ := List.mem_map.1 isMember
    rcases each operation isOperation with rfl | ⟨record, rfl⟩
    · exact serves_writeCondition plainCondition isCondition
    · exact .nothing
  | get isRequest =>
    obtain rfl := List.mem_singleton.1 isMember
    exact serves_get plainOthers isRequest
  | query isRequest =>
    obtain rfl := List.mem_singleton.1 isMember
    exact serves_query plainOwn plainCondition plainOthers isRequest
  | scan isRequest =>
    obtain rfl := List.mem_singleton.1 isMember
    exact serves_scan plainCondition plainOthers isRequest

/-- A request is closed unless it is an update that binds a name for nothing: what is bound is what
the texts mention and the names of the actions that write nothing, so these must be mentioned by
something else. -/
theorem isClosed_iff (plainOwn : ∀ path ∈ entity.ownPaths, Path.IsPlain path) {ask : Ask}
    (plain : ∀ path ∈ ask.paths, Path.IsPlain path) {requests : List Request}
    (asked : ask.requests entity = .ok requests) {request : Request} (isMember : request ∈ requests) :
    ∃ mentioned, allPlaceholders? request.texts = some mentioned ∧
      (∀ placeholder, request.bindings.Binds placeholder ↔
        placeholder ∈ mentioned ∨ placeholder ∈ ask.idle request) ∧
      (request.IsClosed ↔ ask.idle request ⊆ mentioned) := by
  obtain ⟨mentioned, found, binds⟩ := serves plainOwn plain asked isMember
  refine ⟨mentioned, found, binds, ?_⟩
  constructor
  · rintro ⟨_, found', closed⟩ placeholder isIdle
    obtain rfl := Option.some.inj (found.symm.trans found')
    exact (closed placeholder).1 ((binds placeholder).2 (.inr isIdle))
  · intro subset
    refine ⟨mentioned, found, fun placeholder => (binds placeholder).trans ?_⟩
    exact ⟨fun isBound => isBound.elim id (subset ·), .inl⟩

end Ask

end Entity

/-! ## An update that removes no tag -/

def nameUser : Entity.UpdateCall where
  draw := fun _ => ⟨0, fun _ => 0⟩
  attributes := .single "id" (.string "1")
  body := .ofList [("tags", .removeAt []), ("name", .set (.string "ann"))]
  options := {}

/-- The update names the tags and mentions them nowhere. -/
theorem not_isClosed_nameUser :
    ∃ request, (Entity.Ask.update nameUser none).requests plainUserEntity = .ok [request] ∧
      request.texts = ["SET #UE_name = :UE_name", "attribute_exists(#CE_PK)"] ∧
      request.bindings.Binds (.name "#UE_tags") ∧ ¬ request.IsClosed := by
  have runs : ((Entity.Ask.update nameUser none).requests plainUserEntity).toOption.map (·.map
      fun request => (request.texts, (Entity.Ask.update nameUser none).idle request)) =
        some [(["SET #UE_name = :UE_name", "attribute_exists(#CE_PK)"], [.name "#UE_tags"])] := by
    decide +kernel
  cases asked : (Entity.Ask.update nameUser none).requests plainUserEntity with
  | error error => simp [asked, Except.toOption] at runs
  | ok requests =>
    rw [asked] at runs
    obtain ⟨request, rfl, request_eq⟩ := List.map_eq_singleton_iff.1 (Option.some.inj runs)
    obtain ⟨texts_eq, idle_eq⟩ := Prod.mk.inj request_eq
    have plainOwn : ∀ path ∈ plainUserEntity.ownPaths, Path.IsPlain path :=
      Path.isPlain_of_spelled [("PK", []), ("PK", []), ("id", [])] (by decide +kernel) (by decide)
    have plain : ∀ path ∈ (Entity.Ask.update nameUser none).paths, Path.IsPlain path :=
      Path.isPlain_of_spelled [("tags", []), ("name", [])] (by decide +kernel) (by decide)
    obtain ⟨mentioned, found, binds, closed_iff⟩ :=
      Entity.Ask.isClosed_iff plainOwn plain asked List.mem_cons_self
    have isIdle : .name "#UE_tags" ∈ (Entity.Ask.update nameUser none).idle request := by
      rw [idle_eq]
      exact List.mem_singleton_self _
    have notMentioned : .name "#UE_tags" ∉ mentioned := by
      rw [texts_eq] at found
      obtain rfl : _ = mentioned := Option.some.inj found
      decide +kernel
    refine ⟨request, rfl, texts_eq, (binds _).2 (.inr isIdle), ?_⟩
    rw [closed_iff]
    exact fun subset => notMentioned (subset isIdle)

end SingleTable
