import SingleTable.Entity.Reads
import SingleTable.Entity.Writes
import SingleTable.Proofs.Condition.Meaning
import SingleTable.Proofs.Entity.Layout

/-!
# How requests are made

A request that is made tells of the steps behind it: none of them failed, and each part of the
request is what its step answered.  There is one lemma for each request of an entity.

The expressions of a request are compiled apart and taken in one after another, over the same
bindings (`Takes`).  In the end each of them stands for what it was compiled to (`Takes.each`).
-/

namespace SingleTable

/-! ## Taking expressions in -/

/-- Expressions are taken into a request one after another; the texts that the request holds of
them, and its bindings before and after. -/
inductive Takes : Bindings → List (Except Error (Option CompiledExpression)) →
    List (Option String) → Bindings → Prop where
  | nil {bindings : Bindings} : Takes bindings [] [] bindings
  | cons {before middle after : Bindings} {outcome : Except Error (Option CompiledExpression)}
      {outcomes : List (Except Error (Option CompiledExpression))} {text : Option String}
      {texts : List (Option String)}
      (first : Succeeds (Binding.absorbCompiled outcome) before text middle)
      (others : Takes middle outcomes texts after) :
      Takes before (outcome :: outcomes) (text :: texts) after

namespace Takes

variable {before after : Bindings} {outcome : Except Error (Option CompiledExpression)}
  {outcomes : List (Except Error (Option CompiledExpression))} {text : Option String}
  {texts : List (Option String)}

/-- What is taken in keeps its text, and stands for the same in the end. -/
theorem each (takes : Takes before outcomes texts after) :
    before.Within after ∧
      List.Forall₂ (fun outcome text => ∃ expression, outcome = .ok expression ∧
        text = expression.map (·.text) ∧ ∀ compiled ∈ expression, compiled.bindings.Within after)
        outcomes texts := by
  induction takes with
  | nil => exact ⟨.refl _, .nil⟩
  | cons first _ inductionHypothesis =>
    obtain ⟨withinOthers, eachOther⟩ := inductionHypothesis
    obtain ⟨expression, outcome_eq, within, text_eq, brings⟩ := Binding.succeeds_absorbCompiled first
    exact ⟨within.trans withinOthers, .cons ⟨expression, outcome_eq, text_eq,
      fun compiled isCompiled => (brings compiled isCompiled).trans withinOthers⟩ eachOther⟩

theorem of_collect (run : Binding.collect (Binding.absorbCompiled outcome) = .ok (text, after)) :
    Takes {} [outcome] [text] after :=
  .cons (Binding.succeeds_of_collect run) .nil

end Takes

def Condition.compileOption (kind : ExpressionKind) :
    Option Condition → Except Error (Option CompiledExpression)
  | none => .ok none
  | some condition => condition.compile kind

namespace Entity

variable {entity : Entity}

/-! ## Writes -/

theorem takes_of_writeCondition {condition : Option Condition} {text : Option String}
    {bindings : Bindings} (written : writeCondition condition = .ok (text, bindings)) :
    Takes {} [Condition.compileOption .condition condition] [text] bindings := by
  cases condition with
  | none =>
    obtain ⟨rfl, rfl⟩ := Prod.mk.inj (Except.ok.inj written)
    exact .cons (succeeds_pure.2 ⟨rfl, rfl⟩) .nil
  | some condition => exact .of_collect written

/-- The record of a unique value is put where there is none. -/
theorem put_of_claim {record : Item} {operation : WriteOperation}
    (claimed : entity.claim record = .ok operation) :
    ∃ request : PutRequest, operation = .put request ∧ request.item = record ∧
      writeCondition (some entity.keyAbsent) = .ok (request.condition, request.bindings) := by
  obtain ⟨⟨condition, bindings⟩, written, answer⟩ := bind_eq_ok.1 claimed
  obtain rfl := Except.ok.inj answer
  exact ⟨_, rfl, rfl, written⟩

/-- The put of a new item, and where its parts come from. -/
structure WritesCreate (entity : Entity) (draw : String → Moment) (attributes : Item)
    (options : CreateOptions) (put : PutRequest) (claims : List WriteOperation) : Prop where
  table : put.table = entity.table.name
  item : entity.toPhysical draw attributes = .ok put.item
  condition : writeCondition (entity.createCondition options) = .ok (put.condition, put.bindings)
  claims : ∃ records, entity.uniqueRecords put.item = .ok records ∧
    List.Forall₂ (fun record operation => entity.claim record.2 = .ok operation) records claims

theorem createOperations_eq_ok {draw : String → Moment} {attributes : Item}
    {options : CreateOptions} {put : PutRequest} {claims : List WriteOperation}
    (created : entity.createOperations draw attributes options = .ok (put, claims)) :
    entity.WritesCreate draw attributes options put claims := by
  obtain ⟨item, isItem, rest⟩ := bind_eq_ok.1 created
  obtain ⟨⟨condition, bindings⟩, isCondition, rest⟩ := bind_eq_ok.1 rest
  obtain ⟨records, areRecords, rest⟩ := bind_eq_ok.1 rest
  obtain ⟨claimed, areClaims, answer⟩ := bind_eq_ok.1 rest
  obtain ⟨rfl, rfl⟩ := Prod.mk.inj (Except.ok.inj answer)
  exact ⟨rfl, isItem, isCondition, records, areRecords, forall₂_of_mapM areClaims⟩

theorem writesCreate_of_createWrite {draw : String → Moment} {attributes : Item} {options : CreateOptions}
    {write : PendingWrite} (created : entity.createWrite draw attributes options = .ok write) :
    ∃ put claims, write = .direct (.put put :: claims) ∧
      entity.WritesCreate draw attributes options put claims := by
  obtain ⟨⟨put, claims⟩, operations, answer⟩ := bind_eq_ok.1 created
  obtain rfl := Except.ok.inj answer
  exact ⟨put, claims, rfl, createOperations_eq_ok operations⟩

/-- The pending write of an update, and where its parts come from. -/
structure WritesUpdate (entity : Entity) (draw : String → Moment) (attributes : Item)
    (body : UpdateBody) (options : UpdateOptions) (write : PendingWrite) (request : UpdateRequest)
    (changes : KeyChanges) (changed : List (String × Option Value)) : Prop where
  key : entity.primaryKey attributes = .ok request.key
  table : request.table = entity.table.name
  identity : entity.checkIdentity body = .ok ()
  affected : entity.affectedIndexes (entity.withGenerated draw body)
    (options.context.union attributes) = .ok changes
  expressions : ∃ clauses compiled,
    updateClauses (entity.withGenerated draw body) changes = .ok clauses ∧
    clauses.compile = .ok compiled ∧ request.update = compiled.text ∧
    Takes {} [.ok (some compiled), (entity.keyPresent.andOption options.condition).compile .condition]
      [some request.update, request.condition] request.bindings
  uniques : entity.changedUniques (entity.withGenerated draw body) entity.uniques = .ok changed
  write : write = if changed.isEmpty then .direct [.update request]
    else .afterRead entity.name ⟨entity.table.name, request.key⟩
      (entity.resolveUpdate (.update request) changed)

theorem updateWrite_eq_ok {draw : String → Moment} {attributes : Item} {body : UpdateBody}
    {options : UpdateOptions} {write : PendingWrite}
    (written : entity.updateWrite draw attributes body options = .ok write) :
    ∃ request changes changed,
      entity.WritesUpdate draw attributes body options write request changes changed := by
  obtain ⟨key, isKey, rest⟩ := bind_eq_ok.1 written
  obtain ⟨⟨⟩, identity, rest⟩ := bind_eq_ok.1 rest
  obtain ⟨changes, affected, rest⟩ := bind_eq_ok.1 rest
  obtain ⟨clauses, areClauses, rest⟩ := bind_eq_ok.1 rest
  obtain ⟨⟨⟨update, condition⟩, bindings⟩, collected, rest⟩ := bind_eq_ok.1 rest
  obtain ⟨changed, areChanged, answer⟩ := bind_eq_ok.1 rest
  obtain ⟨_, middle, takesUpdate, rest⟩ := succeeds_bind.1 (Binding.succeeds_of_collect collected)
  obtain ⟨_, last, takesCondition, pair⟩ := succeeds_bind.1 rest
  obtain ⟨pair_eq, rfl⟩ := succeeds_pure.1 pair
  obtain ⟨rfl, rfl⟩ := Prod.mk.inj pair_eq
  cases compiles : clauses.compile with
  | error error =>
    rw [compiles] at takesUpdate
    exact absurd takesUpdate not_succeeds_throw
  | ok compiled =>
    rw [compiles] at takesUpdate
    have takesUpdate : Succeeds (Binding.absorb (some compiled)) {} update middle := takesUpdate
    obtain ⟨-, rfl, -⟩ := Binding.succeeds_absorb takesUpdate
    refine ⟨{ table := entity.table.name, key, update := compiled.text, condition, bindings },
      changes, changed, isKey, rfl, identity, affected, ?_, areChanged, ?_⟩
    · exact ⟨clauses, compiled, areClauses, compiles, rfl, .cons takesUpdate (.cons takesCondition .nil)⟩
    · split at answer
      · next isEmpty =>
        rw [if_pos isEmpty]
        exact (Except.ok.inj answer).symm
      · next notEmpty =>
        rw [if_neg notEmpty]
        exact (Except.ok.inj answer).symm

theorem deleteWrite_eq_ok {attributes : Item} {options : DeleteOptions} {write : PendingWrite}
    (written : entity.deleteWrite attributes options = .ok write) :
    ∃ request : DeleteRequest, entity.primaryKey attributes = .ok request.key ∧
      request.table = entity.table.name ∧
      writeCondition options.condition = .ok (request.condition, request.bindings) ∧
      write = if entity.hasUniques then .afterRead entity.name ⟨entity.table.name, request.key⟩
          (entity.resolveDelete (.delete request))
        else .direct [.delete request] := by
  obtain ⟨key, isKey, rest⟩ := bind_eq_ok.1 written
  obtain ⟨⟨condition, bindings⟩, isCondition, answer⟩ := bind_eq_ok.1 rest
  refine ⟨{ table := entity.table.name, key, condition, bindings }, isKey, rfl, isCondition, ?_⟩
  dsimp only at answer
  split at answer
  · next hasUniques =>
    rw [if_pos hasUniques]
    exact (Except.ok.inj answer).symm
  · next noUniques =>
    rw [if_neg noUniques]
    exact (Except.ok.inj answer).symm

theorem head_resolveUpdate {main : WriteOperation} {changed : List (String × Option Value)}
    {prior : Option Item} {operations : List WriteOperation}
    (resolved : entity.resolveUpdate main changed prior = .ok operations) :
    operations.head? = some main := by
  obtain ⟨⟨claims, releases⟩, -, answer⟩ := bind_eq_ok.1 resolved
  obtain rfl := Except.ok.inj answer
  rfl

theorem head_resolveDelete {main : WriteOperation} {prior : Option Item}
    {operations : List WriteOperation} (resolved : entity.resolveDelete main prior = .ok operations) :
    operations.head? = some main := by
  cases prior with
  | none =>
    obtain rfl := Except.ok.inj resolved
    rfl
  | some item =>
    obtain ⟨releases, -, answer⟩ := bind_eq_ok.1 resolved
    obtain rfl := Except.ok.inj answer
    rfl

/-! ## Claims and releases -/

def claimsOf (entity : Entity) (name : String) : Option Value → Except Error (List WriteOperation)
  | none => .ok []
  | some value => do
    match ← entity.uniqueRecord name value with
    | none => return []
    | some record => return [← entity.claim record]

def releasesOf (entity : Entity) (name : String) : Option Value → Except Error (List WriteOperation)
  | none => .ok []
  | some value => do
    match ← entity.uniqueRecord name value with
    | none => return []
    | some record => return [entity.release record]

theorem exchange_cons (prior : Option Item) (name : String) (new : Option Value)
    (changes : List (String × Option Value)) :
    entity.exchange prior ((name, new) :: changes) =
      if prior.bind (·.present? name) = new then entity.exchange prior changes
      else do
        let claims ← entity.claimsOf name new
        let releases ← entity.releasesOf name (prior.bind (·.present? name))
        let others ← entity.exchange prior changes
        return (claims ++ others.1, releases ++ others.2) := by
  rw [exchange]
  dsimp only
  by_cases unchanged : prior.bind (·.present? name) = new
  · rw [if_pos unchanged, if_pos unchanged]
  · rw [if_neg unchanged, if_neg unchanged]
    clear unchanged
    generalize prior.bind (·.present? name) = old
    generalize entity.exchange prior changes = others
    -- the code goes on inside each case; what it does there is the same
    have released : ∀ claims : List WriteOperation,
        (do
          let releases ← match old with
            | none => pure []
            | some value => match ← entity.uniqueRecord name value with
              | none => pure []
              | some record => pure [entity.release record]
          let others ← others
          return (claims ++ others.1, releases ++ others.2)) =
        (do
          let releases ← entity.releasesOf name old
          let others ← others
          return (claims ++ others.1, releases ++ others.2)) := by
      intro claims
      cases old with
      | none => rfl
      | some value =>
        simp only [releasesOf]
        cases entity.uniqueRecord name value with
        | error error => rfl
        | ok record => cases record <;> rfl
    cases new with
    | none => exact released []
    | some value =>
      simp only [claimsOf]
      cases entity.uniqueRecord name value with
      | error error => rfl
      | ok record =>
        cases record with
        | none => exact released []
        | some record =>
          dsimp only [bind, Except.bind]
          cases entity.claim record with
          | error error => rfl
          | ok operation => exact released [operation]

theorem releases_cons (prior : Item) (unique : UniqueLayout) (uniques : List UniqueLayout) :
    entity.releases prior (unique :: uniques) = (do
      let first ← entity.releasesOf unique.attr (prior.present? unique.attr)
      let others ← entity.releases prior uniques
      return first ++ others) := by
  rw [releases]
  cases prior.present? unique.attr with
  | none => cases entity.releases prior uniques <;> rfl
  | some value =>
    simp only [releasesOf]
    cases entity.uniqueRecord unique.attr value with
    | error error => rfl
    | ok record => cases record <;> rfl

theorem claim_of_claimsOf {name : String} {new : Option Value} {claims : List WriteOperation}
    (claimed : entity.claimsOf name new = .ok claims) :
    ∀ operation ∈ claims, ∃ record, entity.claim record = .ok operation := by
  cases new with
  | none =>
    obtain rfl := Except.ok.inj claimed
    simp
  | some value =>
    obtain ⟨record, -, rest⟩ := bind_eq_ok.1 claimed
    cases record with
    | none =>
      obtain rfl := Except.ok.inj rest
      simp
    | some record =>
      obtain ⟨operation, isClaim, answer⟩ := bind_eq_ok.1 rest
      obtain rfl := Except.ok.inj answer
      intro other isMember
      rw [List.mem_singleton.1 isMember]
      exact ⟨record, isClaim⟩

theorem release_of_releasesOf {name : String} {old : Option Value} {releases : List WriteOperation}
    (released : entity.releasesOf name old = .ok releases) :
    ∀ operation ∈ releases, ∃ record, operation = entity.release record := by
  cases old with
  | none =>
    obtain rfl := Except.ok.inj released
    simp
  | some value =>
    obtain ⟨record, -, rest⟩ := bind_eq_ok.1 released
    cases record with
    | none =>
      obtain rfl := Except.ok.inj rest
      simp
    | some record =>
      obtain rfl := Except.ok.inj rest
      exact fun other isMember => ⟨record, List.mem_singleton.1 isMember⟩

/-- What an exchange adds to an update are claims and releases. -/
theorem each_of_exchange {prior : Option Item} {changed : List (String × Option Value)}
    {claims releases : List WriteOperation}
    (exchanged : entity.exchange prior changed = .ok (claims, releases)) :
    (∀ operation ∈ claims, ∃ record, entity.claim record = .ok operation) ∧
      ∀ operation ∈ releases, ∃ record, operation = entity.release record := by
  induction changed generalizing claims releases with
  | nil =>
    obtain ⟨rfl, rfl⟩ := Prod.mk.inj (Except.ok.inj exchanged)
    simp
  | cons change changed inductionHypothesis =>
    obtain ⟨name, new⟩ := change
    rw [exchange_cons] at exchanged
    split at exchanged
    · -- a value that stays adds nothing
      exact inductionHypothesis exchanged
    · obtain ⟨ownClaims, areClaims, rest⟩ := bind_eq_ok.1 exchanged
      obtain ⟨ownReleases, areReleases, rest⟩ := bind_eq_ok.1 rest
      obtain ⟨⟨others, otherReleases⟩, areOthers, answer⟩ := bind_eq_ok.1 rest
      obtain ⟨rfl, rfl⟩ := Prod.mk.inj (Except.ok.inj answer)
      obtain ⟨eachClaim, eachRelease⟩ := inductionHypothesis areOthers
      constructor
      · intro operation isMember
        exact (List.mem_append.1 isMember).elim (claim_of_claimsOf areClaims operation)
          (eachClaim operation)
      · intro operation isMember
        exact (List.mem_append.1 isMember).elim (release_of_releasesOf areReleases operation)
          (eachRelease operation)

theorem each_of_releases {prior : Item} {uniques : List UniqueLayout}
    {released : List WriteOperation} (releases_eq : entity.releases prior uniques = .ok released) :
    ∀ operation ∈ released, ∃ record, operation = entity.release record := by
  induction uniques generalizing released with
  | nil =>
    obtain rfl := Except.ok.inj releases_eq
    simp
  | cons unique uniques inductionHypothesis =>
    rw [releases_cons] at releases_eq
    obtain ⟨first, isFirst, rest⟩ := bind_eq_ok.1 releases_eq
    obtain ⟨others, areOthers, answer⟩ := bind_eq_ok.1 rest
    obtain rfl := Except.ok.inj answer
    intro operation isMember
    exact (List.mem_append.1 isMember).elim (release_of_releasesOf isFirst operation)
      (inductionHypothesis areOthers operation)

/-! ## Reads -/

theorem getRequest_eq_ok {attributes : Item} {options : GetOptions} {request : GetRequest}
    (asked : entity.getRequest attributes options = .ok request) :
    Takes {} [projectionOf options.select] [request.projection] request.bindings := by
  obtain ⟨key, -, rest⟩ := bind_eq_ok.1 asked
  obtain ⟨⟨projection, bindings⟩, collected, answer⟩ := bind_eq_ok.1 rest
  obtain rfl := Except.ok.inj answer
  exact .of_collect collected

/-- A query, and where its parts come from: the key part and the sort key attribute that it goes
by, the value of the partition, and the test of the sort key. -/
structure AsksQuery (entity : Entity) (partition : Partition) (options : QueryOptions)
    (request : QueryRequest) (part : KeyPart) (sortKey : Option String) (value : Value)
    (sort : Option (String × SortKeyTest)) : Prop where
  isKey : entity.queryKey options.index = .ok (part, sortKey)
  isValue : partitionValue part partition = .ok value
  isSort : sortTest sortKey (options.index.getD entity.table.name) options.sort = .ok sort
  table : request.table = entity.table.name
  index : request.index = options.index
  expressions : ∃ keyCondition, request.keyCondition = keyCondition.getD "" ∧
    Takes {} [KeyCondition.compile ⟨part.attr, value, sort⟩,
        (entity.ownItems options.condition).compile .filter,
        projectionOf (options.select.map withMarker)]
      [keyCondition, request.filter, request.projection] request.bindings

/-- A sort key is tested by its name. -/
theorem sortKey_of_sortTest {sortKey : Option String} {source : String} {asked : Option SortKeyTest}
    {sort : Option (String × SortKeyTest)} (isSort : sortTest sortKey source asked = .ok sort)
    {tested : String × SortKeyTest} (isTested : tested ∈ sort) : tested.1 ∈ sortKey := by
  cases asked with
  | none =>
    obtain rfl := Except.ok.inj isSort
    cases isTested
  | some test =>
    cases sortKey with
    | none => cases isSort
    | some name =>
      obtain rfl := Except.ok.inj isSort
      obtain rfl := Option.some.inj isTested
      rfl

theorem queryRequest_eq_ok {partition : Partition} {options : QueryOptions} {request : QueryRequest}
    (asked : entity.queryRequest partition options = .ok request) :
    ∃ part sortKey value sort, entity.AsksQuery partition options request part sortKey value sort := by
  obtain ⟨⟨part, sortKey⟩, isKey, rest⟩ := bind_eq_ok.1 asked
  obtain ⟨value, isValue, rest⟩ := bind_eq_ok.1 rest
  obtain ⟨sort, isSort, rest⟩ := bind_eq_ok.1 rest
  obtain ⟨⟨⟨keyCondition, filter, projection⟩, bindings⟩, collected, answer⟩ := bind_eq_ok.1 rest
  obtain rfl := Except.ok.inj answer
  obtain ⟨_, _, takesKey, rest⟩ := succeeds_bind.1 (Binding.succeeds_of_collect collected)
  obtain ⟨_, _, takesFilter, rest⟩ := succeeds_bind.1 rest
  obtain ⟨_, _, takesProjection, triple⟩ := succeeds_bind.1 rest
  obtain ⟨triple_eq, rfl⟩ := succeeds_pure.1 triple
  obtain ⟨rfl, rfl, rfl⟩ : keyCondition = _ ∧ filter = _ ∧ projection = _ := by
    simpa using triple_eq
  exact ⟨part, sortKey, value, sort, isKey, isValue, isSort, rfl, rfl, keyCondition, rfl,
    .cons takesKey (.cons takesFilter (.cons takesProjection .nil))⟩

/-- A scan of a table, whether its index was found or it has none. -/
theorem scanTable_eq_ok {table : Table} {filter : Option Condition}
    {options : ScanOptions} {request : ScanRequest}
    (asked : table.scanRequest filter options = .ok request) :
    Takes {} [Condition.compileOption .filter (filter <|> options.condition),
        projectionOf (options.select.map withMarker)]
      [request.filter, request.projection] request.bindings := by
  obtain ⟨taken, collected, filter_eq, projection_eq, bindings_eq⟩ : ∃ taken,
      Binding.collect (do
        let text ← Binding.absorbCompiled
          (Condition.compileOption .filter (filter <|> options.condition))
        let projection ← Binding.absorbCompiled (projectionOf (options.select.map withMarker))
        return (text, projection)) = .ok taken ∧
      request.filter = taken.1.1 ∧ request.projection = taken.1.2 ∧ request.bindings = taken.2 := by
    unfold Table.scanRequest at asked
    dsimp only at asked
    split at asked
    · split at asked
      · cases asked
      · obtain ⟨taken, collected, answer⟩ := bind_eq_ok.1 asked
        obtain rfl := Except.ok.inj answer
        refine ⟨taken, ?_, rfl, rfl, rfl⟩
        rw [← collected]
        cases filter <|> options.condition <;> rfl
    · obtain ⟨taken, collected, answer⟩ := bind_eq_ok.1 asked
      obtain rfl := Except.ok.inj answer
      refine ⟨taken, ?_, rfl, rfl, rfl⟩
      rw [← collected]
      cases filter <|> options.condition <;> rfl
  obtain ⟨_, _, takesFilter, rest⟩ := succeeds_bind.1 (Binding.succeeds_of_collect collected)
  obtain ⟨_, _, takesProjection, pair⟩ := succeeds_bind.1 rest
  obtain ⟨pair_eq, state_eq⟩ := succeeds_pure.1 pair
  rw [filter_eq, projection_eq, bindings_eq, pair_eq, state_eq]
  exact .cons takesFilter (.cons takesProjection .nil)

theorem scanRequest_eq_ok {options : ScanOptions} {request : ScanRequest}
    (asked : entity.scanRequest options = .ok request) :
    Takes {} [(entity.ownItems options.condition).compile .filter,
        projectionOf (options.select.map withMarker)]
      [request.filter, request.projection] request.bindings := by
  have asked : entity.table.scanRequest (some (entity.ownItems options.condition)) options =
      .ok request := by
    unfold Entity.scanRequest at asked
    dsimp only at asked
    split at asked
    · split at asked
      · cases asked
      · exact asked
    · exact asked
  exact scanTable_eq_ok asked

end Entity

/-! ## What callers ask for -/

def PendingWrite.operations (prior : Option Item) : PendingWrite → Except Error (List WriteOperation)
  | direct operations => .ok operations
  | afterRead _ _ resolve => resolve prior

/-- A request whose expressions have placeholders. -/
inductive Request where
  | get (request : GetRequest)
  | query (request : QueryRequest)
  | scan (request : ScanRequest)
  | write (operation : WriteOperation)

namespace Request

def texts : Request → List String
  | get request => request.projection.toList
  | query request => request.keyCondition :: (request.filter.toList ++ request.projection.toList)
  | scan request => request.filter.toList ++ request.projection.toList
  | write (.put request) => request.condition.toList
  | write (.update request) => request.update :: request.condition.toList
  | write (.delete request) => request.condition.toList

def condition : Request → Option String
  | get _ => none
  | query request => request.filter
  | scan request => request.filter
  | write (.put request) => request.condition
  | write (.update request) => request.condition
  | write (.delete request) => request.condition

def bindings : Request → Bindings
  | get request => request.bindings
  | query request => request.bindings
  | scan request => request.bindings
  | write (.put request) => request.bindings
  | write (.update request) => request.bindings
  | write (.delete request) => request.bindings

end Request

namespace Entity

/-- An update as a caller asks for it. -/
structure UpdateCall where
  draw : String → Moment
  /-- The attributes that tell which item is updated. -/
  attributes : Item
  body : UpdateBody
  options : UpdateOptions

def UpdateCall.write (entity : Entity) (call : UpdateCall) : Except Error PendingWrite :=
  entity.updateWrite call.draw call.attributes call.body call.options

/-- Whatever the operations of an update are, the request comes first. -/
theorem WritesUpdate.head?_operations {entity : Entity} {draw : String → Moment} {attributes : Item}
    {body : UpdateBody} {options : UpdateOptions} {write : PendingWrite} {request : UpdateRequest}
    {changes : KeyChanges} {changed : List (String × Option Value)}
    (writes : entity.WritesUpdate draw attributes body options write request changes changed)
    {prior : Option Item} {operations : List WriteOperation}
    (operations_eq : write.operations prior = .ok operations) :
    operations.head? = some (.update request) := by
  rw [writes.write] at operations_eq
  split at operations_eq
  · obtain rfl := Except.ok.inj operations_eq
    rfl
  · exact head_resolveUpdate operations_eq

theorem WritesUpdate.head_operations {entity : Entity} {draw : String → Moment} {attributes : Item}
    {body : UpdateBody} {options : UpdateOptions} {write : PendingWrite} {request : UpdateRequest}
    {changes : KeyChanges} {changed : List (String × Option Value)}
    (writes : entity.WritesUpdate draw attributes body options write request changes changed)
    {prior : Option Item} {first : WriteOperation} {others : List WriteOperation}
    (operations_eq : write.operations prior = .ok (first :: others)) : first = .update request :=
  Option.some.inj (writes.head?_operations operations_eq)

/-- Whatever an update turns out to need besides are claims and releases. -/
theorem WritesUpdate.mem_operations {entity : Entity} {draw : String → Moment} {attributes : Item}
    {body : UpdateBody} {options : UpdateOptions} {write : PendingWrite} {request : UpdateRequest}
    {changes : KeyChanges} {changed : List (String × Option Value)}
    (writes : entity.WritesUpdate draw attributes body options write request changes changed)
    {prior : Option Item} {operations : List WriteOperation}
    (operations_eq : write.operations prior = .ok operations) {operation : WriteOperation}
    (isMember : operation ∈ operations) : operation = .update request ∨
      (∃ record, entity.claim record = .ok operation) ∨
        ∃ record, operation = entity.release record := by
  rw [writes.write] at operations_eq
  split at operations_eq
  · obtain rfl := Except.ok.inj operations_eq
    exact .inl (List.mem_singleton.1 isMember)
  · obtain ⟨⟨claims, releases⟩, exchanged, answer⟩ := bind_eq_ok.1 operations_eq
    obtain rfl := Except.ok.inj answer
    obtain ⟨eachClaim, eachRelease⟩ := each_of_exchange exchanged
    rcases List.mem_append.1 isMember with isMember | isRelease
    · rcases List.mem_cons.1 isMember with isMain | isClaim
      · exact .inl isMain
      · exact .inr (.inl (eachClaim operation isClaim))
    · exact .inr (.inr (eachRelease operation isRelease))

/-- A delete releases records besides, without a condition. -/
theorem mem_resolveDelete {entity : Entity} {main : WriteOperation} {prior : Option Item}
    {operations : List WriteOperation} (resolved : entity.resolveDelete main prior = .ok operations)
    {operation : WriteOperation} (isMember : operation ∈ operations) :
    operation = main ∨ ∃ record, operation = entity.release record := by
  cases prior with
  | none =>
    obtain rfl := Except.ok.inj resolved
    exact .inl (List.mem_singleton.1 isMember)
  | some item =>
    obtain ⟨released, areReleases, answer⟩ := bind_eq_ok.1 resolved
    obtain rfl := Except.ok.inj answer
    rcases List.mem_cons.1 isMember with isMain | isRelease
    · exact .inl isMain
    · exact .inr (each_of_releases areReleases operation isRelease)

/-- What a caller can ask of an entity.  A write that reads first goes on with what it finds. -/
inductive Ask where
  | create (draw : String → Moment) (attributes : Item) (options : CreateOptions)
  | update (call : UpdateCall) (prior : Option Item)
  | delete (attributes : Item) (options : DeleteOptions) (prior : Option Item)
  | get (attributes : Item) (options : GetOptions)
  | query (partition : Partition) (options : QueryOptions)
  | scan (options : ScanOptions)

namespace Ask

def requests (entity : Entity) : Ask → Except Error (List Request)
  | create draw attributes options => do
    let write ← entity.createWrite draw attributes options
    return (← write.operations none).map .write
  | update call prior => do
    let write ← call.write entity
    return (← write.operations prior).map .write
  | delete attributes options prior => do
    let write ← entity.deleteWrite attributes options
    return (← write.operations prior).map .write
  | get attributes options => do return [.get (← entity.getRequest attributes options)]
  | query partition options => do return [.query (← entity.queryRequest partition options)]
  | scan options => do return [.scan (← entity.scanRequest options)]

def condition : Ask → Option Condition
  | create _ _ options => options.condition
  | update call _ => call.options.condition
  | delete _ options _ => options.condition
  | get _ _ => none
  | query _ options => options.condition
  | scan options => options.condition

def conditionPaths (ask : Ask) : List String := ask.condition.toList.flatMap (·.paths)

def paths (ask : Ask) : List String :=
  ask.conditionPaths ++
    match ask with
    | create _ _ _ | delete _ _ _ => []
    | update call _ => call.body.actions.map Prod.fst
    | get _ options => options.select.getD []
    | query _ options => options.select.getD []
    | scan options => options.select.getD []

theorem plain_condition {ask : Ask} (plain : ∀ path ∈ ask.conditionPaths, Path.IsPlain path) :
    ∀ condition ∈ ask.condition, ∀ path ∈ condition.paths, Path.IsPlain path :=
  fun condition isAsked path isPath =>
    plain path (List.mem_flatMap.2 ⟨condition, Option.mem_toList.2 isAsked, isPath⟩)

/-- The requests that an ask makes, and where they come from. -/
inductive Makes (entity : Entity) : Ask → List Request → Prop where
  | create {draw : String → Moment} {attributes : Item} {options : CreateOptions} {put : PutRequest}
      {claims : List WriteOperation}
      (writes : entity.WritesCreate draw attributes options put claims) :
      Makes entity (create draw attributes options) (.write (.put put) :: claims.map .write)
  | update {call : UpdateCall} {prior : Option Item} {write : PendingWrite} {main : UpdateRequest}
      {changes : KeyChanges} {changed : List (String × Option Value)}
      {operations : List WriteOperation}
      (writes : entity.WritesUpdate call.draw call.attributes call.body call.options write main
        changes changed)
      (resolved : write.operations prior = .ok operations) :
      Makes entity (update call prior) (operations.map .write)
  | delete {attributes : Item} {options : DeleteOptions} {prior : Option Item} {main : DeleteRequest}
      {operations : List WriteOperation}
      (condition : writeCondition options.condition = .ok (main.condition, main.bindings))
      (each : ∀ operation ∈ operations,
        operation = .delete main ∨ ∃ record, operation = entity.release record) :
      Makes entity (delete attributes options prior) (operations.map .write)
  | get {attributes : Item} {options : GetOptions} {request : GetRequest}
      (asked : entity.getRequest attributes options = .ok request) :
      Makes entity (get attributes options) [.get request]
  | query {partition : Partition} {options : QueryOptions} {request : QueryRequest}
      (asked : entity.queryRequest partition options = .ok request) :
      Makes entity (query partition options) [.query request]
  | scan {options : ScanOptions} {request : ScanRequest}
      (asked : entity.scanRequest options = .ok request) : Makes entity (scan options) [.scan request]

theorem makes_of_requests {entity : Entity} {ask : Ask} {requests : List Request}
    (asked : ask.requests entity = .ok requests) : ask.Makes entity requests := by
  cases ask with
  | create draw attributes options =>
    obtain ⟨write, written, rest⟩ := bind_eq_ok.1 asked
    obtain ⟨put, claims, rfl, writes⟩ := writesCreate_of_createWrite written
    obtain ⟨operations, resolved, answer⟩ := bind_eq_ok.1 rest
    obtain rfl := Except.ok.inj resolved
    obtain rfl := Except.ok.inj answer
    exact .create writes
  | update call prior =>
    obtain ⟨write, written, rest⟩ := bind_eq_ok.1 asked
    obtain ⟨main, changes, changed, writes⟩ := updateWrite_eq_ok written
    obtain ⟨operations, resolved, answer⟩ := bind_eq_ok.1 rest
    obtain rfl := Except.ok.inj answer
    exact .update writes resolved
  | delete attributes options prior =>
    obtain ⟨write, written, rest⟩ := bind_eq_ok.1 asked
    obtain ⟨main, -, -, isCondition, rfl⟩ := deleteWrite_eq_ok written
    obtain ⟨operations, resolved, answer⟩ := bind_eq_ok.1 rest
    obtain rfl := Except.ok.inj answer
    refine .delete isCondition fun operation isOperation => ?_
    split at resolved
    · exact mem_resolveDelete resolved isOperation
    · obtain rfl := Except.ok.inj resolved
      exact .inl (List.mem_singleton.1 isOperation)
  | get attributes options =>
    obtain ⟨request, isRequest, answer⟩ := bind_eq_ok.1 asked
    obtain rfl := Except.ok.inj answer
    exact .get isRequest
  | query partition options =>
    obtain ⟨request, isRequest, answer⟩ := bind_eq_ok.1 asked
    obtain rfl := Except.ok.inj answer
    exact .query isRequest
  | scan options =>
    obtain ⟨request, isRequest, answer⟩ := bind_eq_ok.1 asked
    obtain rfl := Except.ok.inj answer
    exact .scan isRequest

end Ask

end Entity

end SingleTable

