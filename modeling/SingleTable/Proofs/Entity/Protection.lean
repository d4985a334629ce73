import SingleTable.Proofs.Entity.Guards

/-!
# Guards

A create that must not overwrite, an update, a query and a scan add a condition of their own to
what the caller asks.  It is joined to the caller's by `AND`, and the text of the two is met where
both of them are (`Entity.Ask.meets_guarded`): whatever the caller asks, nothing is met where the
guard is not.

The guards of writes are about the attributes of the key, but name them in an expression, where a
name with a dot or a bracket is a path into a document.  Such a guard looks at another place than
the key.
-/

namespace SingleTable

open Grammar

/-! ## Following paths -/

def PathSegment.positions? (segment : PathSegment) : Option (List Nat) :=
  match (tokens? segment.indexes).map parseSegments with
  | some (positions, [], []) => positions.mapM String.toNat?
  | _ => none

namespace Value

def element? (value : Value) : List Nat → Option Value
  | [] => some value
  | position :: positions =>
    match value with
    | list elements => elements[position]?.bind (·.element? positions)
    | _ => none

def follow? (value : Value) : List PathSegment → Option Value
  | [] => some value
  | segment :: rest =>
    match value with
    | map fields => do
      let field ← NameMap.findEntry segment.name fields
      let element ← field.element? (← segment.positions?)
      element.follow? rest
    | _ => none

end Value

namespace Item

def follow? (item : Item) (path : List PathSegment) : Option Value := (Value.map item.entries).follow? path

def locate? (item : Item) (path : String) : Option Value := item.follow? (Path.segments path)

/-- A path of one name leads to the attribute. -/
theorem follow?_name (item : Item) (name : String) : item.follow? [⟨name, ""⟩] = item.get? name := by
  have noPositions : PathSegment.positions? ⟨name, ""⟩ = some [] := rfl
  simp only [follow?, Value.follow?, noPositions, NameMap.get?]
  cases NameMap.findEntry name item.entries <;> rfl

theorem locate?_of_isWord (item : Item) {name : String} (isWord : IsWord name) :
    item.locate? name = item.get? name := by
  rw [locate?, Path.segments_of_isWord isWord, follow?_name]

/-- A plain path that is not a word does not lead to the attribute of that name, nor does any other
plain path. -/
theorem locate?_single_of_not_isWord {name path : String} (notWord : ¬ IsWord name)
    (plain : Path.IsPlain path) (value : Value) : (single name value).locate? path = none := by
  obtain ⟨first, rest, segments_eq⟩ := List.exists_cons_of_ne_nil (Path.segments_ne_nil path)
  have isWord := (plain first (by simp [segments_eq])).1
  have apart : name ≠ first.name := by
    rintro rfl
    exact notWord isWord
  have notFound : NameMap.findEntry first.name (single name value).entries = none := by
    have get?_eq : (single name value).get? first.name = none := by
      rw [single, NameMap.ofList]
      exact NameMap.get?_insert_of_ne ∅ value apart
    exact get?_eq
  simp only [locate?, follow?, segments_eq, Value.follow?, notFound]
  rfl

end Item

/-! ## The service -/

/-- A service that tells by its paths whether an item has a value, and whether it is a text. -/
structure Service.Finds (service : Service) : Prop where
  present : ∀ (item : Item) (path : List PathSegment),
    service.holds item (.test (.call .present (.path path) none)) = (item.follow? path).isSome
  absent : ∀ (item : Item) (path : List PathSegment),
    service.holds item (.test (.call .absent (.path path) none)) = (item.follow? path).isNone
  equal : ∀ (item : Item) (path : List PathSegment) (text : String),
    service.holds item (.test (.compare (.path path) .equal (.value (.string text)))) =
      decide (item.follow? path = some (.string text))

def Service.lookup : Service :=
  { (default : Service) with
    judge := fun predicate item =>
      match predicate with
      | .call .present (.path path) none => (item.follow? path).isSome
      | .call .absent (.path path) none => (item.follow? path).isNone
      | .compare (.path path) .equal (.value value) => item.follow? path = some value
      | _ => false }

theorem Service.finds_lookup : Service.lookup.Finds where
  present item path := by
    by_cases isName : ∃ name, path = [⟨name, ""⟩]
    · obtain ⟨name, rfl⟩ := isName
      rw [Item.follow?_name, Service.holds, NameMap.contains]
    · rw [Service.holds]
      · rfl
      · rintro name ⟨⟩
        exact isName ⟨name, rfl⟩
      · rintro name ⟨⟩
  absent item path := by
    by_cases isName : ∃ name, path = [⟨name, ""⟩]
    · obtain ⟨name, rfl⟩ := isName
      rw [Item.follow?_name, Service.holds, NameMap.contains, Option.not_isSome]
    · rw [Service.holds]
      · rfl
      · rintro name ⟨⟩
      · rintro name ⟨⟩
        exact isName ⟨name, rfl⟩
  equal item path text := rfl

/-! ## The guards of an entity -/

/-- A condition that an entity adds to what callers ask. -/
inductive Guard where
  /-- There is no item with the key. -/
  | vacant
  /-- There is an item with the key. -/
  | occupied
  /-- The item is one of the entity. -/
  | own

namespace Guard

variable {entity : Entity}

def condition (entity : Entity) : Guard → Condition
  | vacant => entity.keyAbsent
  | occupied => entity.keyPresent
  | own => .equals entityMarker (.string entity.name)

def names (entity : Entity) : Guard → List String
  | vacant => entity.table.keyAttributes
  | occupied => [entity.table.partitionKey]
  | own => [entityMarker]

def isMet (entity : Entity) (find : String → Option Value) : Guard → Bool
  | vacant => entity.table.keyAttributes.all fun name => (find name).isNone
  | occupied => (find entity.table.partitionKey).isSome
  | own => find entityMarker = some (.string entity.name)

theorem paths_condition (guard : Guard) : (guard.condition entity).paths = guard.names entity := by
  cases guard with
  | vacant => exact Entity.paths_keyAbsent entity
  | occupied | own => rfl

theorem isMet_congr (guard : Guard) {find find' : String → Option Value}
    (agree : ∀ name ∈ guard.names entity, find name = find' name) :
    guard.isMet entity find = guard.isMet entity find' := by
  cases guard with
  | vacant =>
    rw [Bool.eq_iff_iff, isMet, isMet, List.all_eq_true, List.all_eq_true]
    exact forall₂_congr fun name isKey => by rw [agree name isKey]
  | occupied | own => simp only [isMet, agree _ List.mem_cons_self]

/-- What the condition of a guard says is that it is met at its paths. -/
theorem accepts_condition {service : Service} (finds : service.Finds) (guard : Guard) (item : Item) :
    service.accepts item (guard.condition entity).meaning = guard.isMet entity item.locate? := by
  have accepts_absent : ∀ name, service.accepts item (Condition.absent name).meaning =
      (item.locate? name).isNone := fun name => finds.absent item (Path.segments name)
  cases guard with
  | vacant =>
    rw [condition, Entity.accepts_keyAbsent]
    simp only [accepts_absent, isMet]
  | occupied => exact finds.present item (Path.segments entity.table.partitionKey)
  | own => exact finds.equal item (Path.segments entityMarker) entity.name

/-- A guard looks at the attributes it is about if their names are words, and only then. -/
theorem isMet_locate?_iff (guard : Guard) (plain : ∀ name ∈ guard.names entity, Path.IsPlain name) :
    (∀ item : Item, guard.isMet entity item.locate? = guard.isMet entity item.get?) ↔
      ∀ name ∈ guard.names entity, IsWord name := by
  constructor
  · intro same name isName
    by_contra notWord
    have atPaths : ∀ path ∈ guard.names entity, (Item.single name .unknown).locate? path = none :=
      fun path isPath => Item.locate?_single_of_not_isWord notWord (plain path isPath) _
    have byName : (Item.single name .unknown).get? name = some .unknown :=
      NameMap.get?_insert_self ∅ name _
    have same := same (.single name .unknown)
    cases guard with
    | vacant =>
      have isMet : Guard.vacant.isMet entity (Item.single name .unknown).locate? = true :=
        List.all_eq_true.2 fun path isPath => by rw [atPaths path isPath]; rfl
      rw [isMet] at same
      have isNone := List.all_eq_true.1 same.symm name isName
      rw [byName] at isNone
      cases isNone
    | occupied =>
      obtain rfl := List.mem_singleton.1 isName
      simp [isMet, atPaths _ isName, byName] at same
    | own =>
      obtain rfl := List.mem_singleton.1 isName
      exact notWord (by decide)
  · intro isWord item
    exact guard.isMet_congr fun name isName => item.locate?_of_isWord (isWord name isName)

end Guard

/-! ## Guarded requests -/

namespace Entity.Ask

variable {entity : Entity}

def guard? : Ask → Option Guard
  | create _ _ options => if options.overwrite then none else some .vacant
  | update _ _ => some .occupied
  | delete _ _ _ | get _ _ => none
  | query _ _ | scan _ => some .own

/-- The condition of the first request: the guard, if there is one, and the condition of the caller. -/
def joined (entity : Entity) (ask : Ask) : Option Condition :=
  match ask.guard? with
  | some guard => some ((guard.condition entity).andOption ask.condition)
  | none => ask.condition

theorem joined_create (draw : String → Moment) (attributes : Item) (options : CreateOptions) :
    (create draw attributes options).joined entity = entity.createCondition options := by
  unfold createCondition
  cases overwrite_eq : options.overwrite <;> simp [joined, guard?, overwrite_eq, condition, Guard.condition]

/-- The first request of an ask has the guard and the caller's condition compiled as one. -/
theorem compile_of_requests {ask : Ask} {request : Request} {others : List Request}
    (asked : ask.requests entity = .ok (request :: others)) :
    ∃ kind, kind ≠ .projection ∧ ∃ expression,
      Condition.compileOption kind (ask.joined entity) = .ok expression ∧
      request.condition = expression.map (·.text) ∧
      ∀ compiled ∈ expression, compiled.bindings.Within request.bindings := by
  generalize requests_eq : request :: others = requests at asked
  cases makes_of_requests asked with
  | create writes =>
    obtain ⟨rfl, -⟩ := List.cons.inj requests_eq
    rw [joined_create]
    exact ⟨.condition, by decide,
      (List.forall₂_cons.1 (takes_of_writeCondition writes.condition).each.2).1⟩
  | @update _ _ _ _ _ _ operations writes resolved =>
    cases operations with
    | nil => cases requests_eq
    | cons first operations =>
      obtain ⟨rfl, -⟩ := List.cons.inj requests_eq
      obtain rfl := writes.head_operations resolved
      obtain ⟨clauses, compiled, -, -, -, takes⟩ := writes.expressions
      exact ⟨.condition, by decide, (List.forall₂_cons.1 (List.forall₂_cons.1 takes.each.2).2).1⟩
  | delete =>
    obtain ⟨write, written, rest⟩ := bind_eq_ok.1 asked
    obtain ⟨main, -, -, isCondition, rfl⟩ := deleteWrite_eq_ok written
    obtain ⟨operations, resolved, answer⟩ := bind_eq_ok.1 rest
    have head_eq : operations.head? = some (.delete main) := by
      split at resolved
      · exact head_resolveDelete resolved
      · obtain rfl := Except.ok.inj resolved
        rfl
    obtain ⟨released, rfl⟩ := List.head?_eq_some_iff.1 head_eq
    rw [← Except.ok.inj answer] at requests_eq
    obtain ⟨rfl, -⟩ := List.cons.inj requests_eq
    exact ⟨.condition, by decide, (List.forall₂_cons.1 (takes_of_writeCondition isCondition).each.2).1⟩
  | get =>
    obtain ⟨rfl, -⟩ := List.cons.inj requests_eq
    exact ⟨.condition, by decide, none, rfl, rfl, by simp⟩
  | query isRequest =>
    obtain ⟨rfl, -⟩ := List.cons.inj requests_eq
    obtain ⟨part, sortKey, value, sort, asks⟩ := queryRequest_eq_ok isRequest
    obtain ⟨keyCondition, -, takes⟩ := asks.expressions
    exact ⟨.filter, by decide, (List.forall₂_cons.1 (List.forall₂_cons.1 takes.each.2).2).1⟩
  | scan isRequest =>
    obtain ⟨rfl, -⟩ := List.cons.inj requests_eq
    exact ⟨.filter, by decide, (List.forall₂_cons.1 (scanRequest_eq_ok isRequest).each.2).1⟩

theorem compile_of_guarded {ask : Ask} {request : Request} {others : List Request}
    (asked : ask.requests entity = .ok (request :: others)) {guard : Guard}
    (guarded : ask.guard? = some guard) :
    ∃ kind expression,
      ((guard.condition entity).andOption ask.condition).compile kind = .ok expression ∧
      request.condition = expression.map (·.text) ∧
      ∀ compiled ∈ expression, compiled.bindings.Within request.bindings := by
  obtain ⟨kind, -, expression, compiles, text_eq, within⟩ := compile_of_requests asked
  rw [joined, guarded] at compiles
  exact ⟨kind, expression, compiles, text_eq, within⟩

/-- A guarded request is met exactly where the guard is met at its paths and the caller's condition
is met, whatever this is.  The guard is about the attributes it names if their names are words, and
only then. -/
theorem meets_guarded {service : Service} (finds : service.Finds) {ask : Ask} {guard : Guard}
    (guarded : ask.guard? = some guard) (plainGuard : ∀ name ∈ guard.names entity, Path.IsPlain name)
    (plain : ∀ path ∈ ask.conditionPaths, Path.IsPlain path) {request : Request}
    {others : List Request} (asked : ask.requests entity = .ok (request :: others)) :
    (∀ item : Item, service.meets item request.condition request.bindings =
      (guard.isMet entity item.locate? && service.accepts item (ask.condition.bind (·.meaning)))) ∧
    ((∀ item : Item, guard.isMet entity item.locate? = guard.isMet entity item.get?) ↔
      ∀ name ∈ guard.names entity, IsWord name) := by
  refine ⟨fun item => ?_, guard.isMet_locate?_iff plainGuard⟩
  obtain ⟨kind, expression, compiles, text_eq, within⟩ := compile_of_guarded asked guarded
  have plainAll : ∀ path ∈ ((guard.condition entity).andOption ask.condition).paths, Path.IsPlain path :=
    Condition.plain_andOption (by rwa [guard.paths_condition]) (plain_condition plain)
  rw [text_eq, service.meets_compiled item plainAll compiles within, Condition.meaning_andOption,
    service.accepts_join, guard.accepts_condition finds]

end Entity.Ask

/-! ## A key with a dot in its name -/

def dottedEntity : Entity where
  name := "USER"
  table := { name := "T", partitionKey := "user.id", sortKey := none, indexes := ∅ }
  attributes := [{ name := "id", type := .string }]
  key := ⟨⟨"user.id", .text "USER#\x7b\x7bid\x7d\x7d"⟩, none⟩
  indexes := []
  uniques := []

def createUser : Entity.Ask :=
  .create (fun _ => ⟨0, fun _ => 0⟩) (.single "id" (.string "1")) {}

/-- A user who is there already does not keep the create from being carried out. -/
theorem meets_createUser_of_taken :
    ∃ request, createUser.requests dottedEntity = .ok [request] ∧
      request.condition = some "attribute_not_exists(#CE_user.#CE_user_id)" ∧
      (Item.single "user.id" (.string "USER#1")).contains dottedEntity.table.partitionKey = true ∧
      Service.lookup.meets (.single "user.id" (.string "USER#1")) request.condition request.bindings =
        true := by
  have runs : (createUser.requests dottedEntity).toOption.map (·.map Request.condition) =
      some [some "attribute_not_exists(#CE_user.#CE_user_id)"] := by decide +kernel
  cases asked : createUser.requests dottedEntity with
  | error error => simp [asked, Except.toOption] at runs
  | ok requests =>
    rw [asked] at runs
    obtain ⟨request, rfl, condition_eq⟩ := List.map_eq_singleton_iff.1 (Option.some.inj runs)
    have plainGuard : ∀ name ∈ Guard.vacant.names dottedEntity, Path.IsPlain name :=
      Path.isPlain_of_spelled [("user", []), ("id", [])] (by decide +kernel) (by decide)
    have plain : ∀ path ∈ createUser.conditionPaths, Path.IsPlain path :=
      Path.isPlain_of_spelled [] rfl (by simp)
    have guarded : createUser.guard? = some .vacant := rfl
    obtain ⟨meets_eq, -⟩ :=
      Entity.Ask.meets_guarded Service.finds_lookup guarded plainGuard plain asked
    refine ⟨request, rfl, condition_eq, by decide +kernel, ?_⟩
    rw [meets_eq]
    decide +kernel

end SingleTable
