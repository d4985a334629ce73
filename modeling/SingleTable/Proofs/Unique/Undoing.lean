import SingleTable.Proofs.Entity.Typing
import SingleTable.Proofs.Unique.Exchange

/-!
# Undoing a create

A create derives the record of a unique attribute from the whole item.  Updates and deletes derive
it again, from the value of that attribute alone.  Both find the same record if its key refers to
no other attribute (`UniqueLayout.IsOwn`), as derived keys do.  An explicit key may refer to others,
and then no delete and no change of the value gets past an item that was created
(`Entity.undoes_create`).
-/

namespace SingleTable

/-! ## Keys of one attribute -/

namespace UniqueLayout

/-- The key of the records is derived from the unique attribute alone. -/
def IsOwn (unique : UniqueLayout) : Prop :=
  ∀ part ∈ unique.key.parts, ∀ name ∈ part.names, name = unique.attr

instance (unique : UniqueLayout) : Decidable unique.IsOwn :=
  inferInstanceAs (Decidable (∀ part ∈ unique.key.parts, ∀ name ∈ part.names, name = unique.attr))

variable {unique : UniqueLayout} {value : Value} {record : Item}

theorem isOwn_of_resolve (resolved : unique.key.resolve (.single unique.attr value) = .ok record) :
    unique.IsOwn := by
  obtain ⟨values, resolved, -⟩ := Key.resolve_eq_ok resolved
  intro part isPart name isName
  obtain ⟨found, found_eq, -⟩ := KeyPart.present_of_resolveAll resolved isPart isName
  by_contra differs
  have isFree : (Item.single unique.attr value).get? name = none :=
    NameMap.get?_insert_of_ne ∅ value (Ne.symm differs)
  rw [Item.present?, isFree] at found_eq
  cases found_eq

/-- The value of the attribute gives the record that the whole item gave. -/
theorem resolve_single (isOwn : unique.IsOwn) {item : Item}
    (holds : item.present? unique.attr = some value)
    (resolved : unique.key.resolve item = .ok record) :
    unique.key.resolve (.single unique.attr value) = .ok record := by
  obtain ⟨values, values_eq, rfl⟩ := Key.resolve_eq_ok resolved
  have notNull : value.isNull = false := by
    simpa using (Option.filter_eq_some_iff.1 holds).2
  have same : ∀ part ∈ unique.key.parts, ∀ name ∈ part.names,
      item.present? name = (Item.single unique.attr value).present? name := by
    intro part isPart name isName
    obtain rfl := isOwn part isPart name isName
    rw [holds, Entity.present?_single notNull]
  rw [Key.resolve, KeyPart.resolveAll_eq_ok same values_eq]

/-- A value that the templates can be made of has a record. -/
theorem exists_resolve_single (isOwn : unique.IsOwn) (notNull : value.isNull = false)
    (renders : ∀ part ∈ unique.key.parts, unique.attr ∈ part.names →
      part.template.renders value = true) :
    ∃ record, unique.key.resolve (.single unique.attr value) = .ok record := by
  cases resolved : unique.key.resolve (.single unique.attr value) with
  | ok record => exact ⟨record, rfl⟩
  | error error =>
    have rendersParts : ∀ part ∈ unique.key.parts, part.Renders (.single unique.attr value) := by
      intro part isPart name isName found found_eq
      obtain rfl := isOwn part isPart name isName
      rw [Entity.present?_single notNull] at found_eq
      obtain rfl := Option.some.inj found_eq
      exact renders part isPart isName
    obtain ⟨part, isPart, name, isName, isMissing, -⟩ := Key.lacks_of_resolve rendersParts resolved
    obtain rfl := isOwn part isPart name isName
    rw [Entity.present?_single notNull] at isMissing
    cases isMissing

end UniqueLayout

def WriteOperation.undone : WriteOperation → WriteOperation
  | put request => .delete { table := request.table, key := request.item }
  | operation => operation

def WriteOperation.isDelete : WriteOperation → Bool
  | delete _ => true
  | _ => false

/-- Whether a body gives a unique attribute another value than an item has, or none. -/
def UpdateBody.renews (body : UpdateBody) (item : Item) (unique : UniqueLayout) : Bool :=
  match body.get? unique.attr with
  | none => false
  | some action => action.outcome? ≠ some (item.present? unique.attr)

/-- An outcome that is good under a condition only. -/
theorem toOption_eq_ite {ε α : Type} {outcome : Except ε α} {condition : Prop} [Decidable condition]
    {result : α} (succeeds : condition → outcome = .ok result)
    (needed : ∀ other, outcome = .ok other → condition) :
    outcome.toOption = if condition then some result else none := by
  by_cases isMet : condition
  · rw [if_pos isMet, succeeds isMet]
    rfl
  · rw [if_neg isMet]
    cases outcome_eq : outcome with
    | error error => rfl
    | ok other => exact absurd (needed other outcome_eq) isMet

namespace Entity

variable {entity : Entity}

/-! ## Records of a new item -/

def Claims (entity : Entity) (item : Item) (unique : UniqueLayout) (operation : WriteOperation) :
    Prop :=
  ∃ value record, item.present? unique.attr = some value ∧
    unique.key.resolve item = .ok record ∧ entity.claim record = .ok operation

theorem WritesCreate.claimsEach {draw : String → Moment} {attributes : Item}
    {options : CreateOptions} {put : PutRequest} {claims : List WriteOperation}
    (created : entity.WritesCreate draw attributes options put claims) :
    List.Forall₂ (entity.Claims put.item) entity.uniques claims := by
  obtain ⟨records, areRecords, areClaims⟩ := created.claims
  refine (forall₂_comp (forall₂_of_mapM areRecords) areClaims).imp ?_
  rintro unique operation ⟨record, isRecord, claimed⟩
  split at isRecord
  · cases isRecord
  · next value holds =>
    obtain ⟨resolved, isResolved, answer⟩ := bind_eq_ok.1 isRecord
    obtain rfl := Except.ok.inj answer
    exact ⟨value, resolved, holds, isResolved, claimed⟩

theorem undone_of_claim {record : Item} {operation : WriteOperation}
    (claimed : entity.claim record = .ok operation) : operation.undone = entity.release record := by
  obtain ⟨⟨condition, bindings⟩, -, answer⟩ := bind_eq_ok.1 claimed
  obtain rfl := Except.ok.inj answer
  rfl

/-- The condition of a claim does not depend on the record. -/
theorem exists_claim {record : Item} {operation : WriteOperation}
    (claimed : entity.claim record = .ok operation) (other : Item) :
    ∃ operation, entity.claim other = .ok operation := by
  obtain ⟨written, isWritten, -⟩ := bind_eq_ok.1 claimed
  exact ⟨_, bind_eq_ok.2 ⟨written, isWritten, rfl⟩⟩

theorem not_isDelete_of_claim {record : Item} {operation : WriteOperation}
    (claimed : entity.claim record = .ok operation) : operation.isDelete = false := by
  obtain ⟨request, rfl, -, -⟩ := put_of_claim claimed
  rfl

section Single

variable (nodup : entity.uniqueNames.Nodup) {unique : UniqueLayout}
  (isUnique : unique ∈ entity.uniques) {item : Item} {operation : WriteOperation}
  (claimed : entity.Claims item unique operation)
include nodup isUnique

theorem uniqueRecord_of_mem (value : Value) :
    entity.uniqueRecord unique.attr value =
      some <$> unique.key.resolve (.single unique.attr value) := by
  have found : entity.unique? unique.attr = some unique := find?_of_nodup nodup isUnique
  rw [uniqueRecord, found]

include claimed

/-- The record of the value that the item holds is the one that was claimed for it. -/
theorem releasesOf_eq (isOwn : unique.IsOwn) :
    entity.releasesOf unique.attr (item.present? unique.attr) = .ok [operation.undone] := by
  obtain ⟨value, record, holds, resolved, isClaim⟩ := claimed
  rw [holds, releasesOf, uniqueRecord_of_mem nodup isUnique,
    UniqueLayout.resolve_single isOwn holds resolved, undone_of_claim isClaim]
  rfl

theorem isOwn_of_releasesOf {released : List WriteOperation}
    (releases_eq : entity.releasesOf unique.attr (item.present? unique.attr) = .ok released) :
    unique.IsOwn := by
  obtain ⟨value, record, holds, -, -⟩ := claimed
  rw [holds, releasesOf, uniqueRecord_of_mem nodup isUnique] at releases_eq
  obtain ⟨found, isFound, -⟩ := bind_eq_ok.1 releases_eq
  obtain ⟨key, resolved, -⟩ := map_eq_ok.1 isFound
  exact UniqueLayout.isOwn_of_resolve resolved

theorem exists_claimsOf (isOwn : unique.IsOwn) {new : Option Value}
    (notNull : ∀ value ∈ new, value.isNull = false)
    (renders : ∀ value ∈ new, ∀ part ∈ unique.key.parts, unique.attr ∈ part.names →
      part.template.renders value = true) :
    ∃ claims, entity.claimsOf unique.attr new = .ok claims := by
  cases new with
  | none => exact ⟨[], rfl⟩
  | some value =>
    obtain ⟨_, _, _, _, isClaim⟩ := claimed
    obtain ⟨record, resolved⟩ :=
      UniqueLayout.exists_resolve_single isOwn (notNull value rfl) (renders value rfl)
    obtain ⟨other, isOther⟩ := exists_claim isClaim record
    refine ⟨[other], ?_⟩
    rw [claimsOf, uniqueRecord_of_mem nodup isUnique, resolved]
    exact bind_eq_ok.2 ⟨some record, rfl, bind_eq_ok.2 ⟨other, isOther, rfl⟩⟩

end Single

section Undo

variable (nodup : entity.uniqueNames.Nodup) {item : Item} {uniques : List UniqueLayout}
  (areUniques : ∀ unique ∈ uniques, unique ∈ entity.uniques) {claims : List WriteOperation}
  (claimed : List.Forall₂ (entity.Claims item) uniques claims)
include nodup areUniques claimed

/-! ## Deletes -/

theorem releases_eq_ok (areOwn : ∀ unique ∈ uniques, unique.IsOwn) :
    entity.releases item uniques = .ok (claims.map (·.undone)) := by
  induction claimed with
  | nil => rfl
  | cons isClaimed _ inductionHypothesis =>
    rw [releases_cons, releasesOf_eq nodup (areUniques _ (by simp)) isClaimed (areOwn _ (by simp)),
      inductionHypothesis (fun other isOther => areUniques other (by simp [isOther]))
        (fun other isOther => areOwn other (by simp [isOther]))]
    rfl

theorem isOwn_of_releases {released : List WriteOperation}
    (releases_eq : entity.releases item uniques = .ok released) :
    ∀ unique ∈ uniques, unique.IsOwn := by
  induction claimed generalizing released with
  | nil => simp
  | cons isClaimed _ inductionHypothesis =>
    rw [releases_cons] at releases_eq
    obtain ⟨first, isFirst, rest⟩ := bind_eq_ok.1 releases_eq
    obtain ⟨others, areOthers, -⟩ := bind_eq_ok.1 rest
    intro unique isUnique
    rcases List.mem_cons.1 isUnique with rfl | isUnique
    · exact isOwn_of_releasesOf nodup (areUniques unique (by simp)) isClaimed isFirst
    · exact inductionHypothesis (fun other isOther => areUniques other (by simp [isOther]))
        areOthers unique isUnique

/-! ## Updates -/

variable {body : UpdateBody} {changed : List (String × Option Value)}
  (areChanged : entity.changedUniques body uniques = .ok changed)
include areChanged

theorem exists_exchange (areOwn : ∀ unique ∈ uniques, body.renews item unique = true → unique.IsOwn)
    (fit : ∀ unique ∈ uniques, ∀ value, body.get? unique.attr = some (.set value) →
      value.isNull = true ∨ ∀ part ∈ unique.key.parts, unique.attr ∈ part.names →
        part.template.renders value = true) :
    ∃ newClaims, entity.exchange (some item) changed = .ok (newClaims,
      ((uniques.zip claims).filter (body.renews item ·.1)).map (·.2.undone)) := by
  induction claimed generalizing changed with
  | nil =>
    obtain rfl := Except.ok.inj areChanged
    exact ⟨[], rfl⟩
  | @cons unique operation uniques claims isClaimed _ inductionHypothesis =>
    -- the induction is on the claims of the create, one for each unique attribute
    have others {changed : List (String × Option Value)}
        (areChanged : entity.changedUniques body uniques = .ok changed) :=
      inductionHypothesis (fun other isOther => areUniques other (by simp [isOther])) areChanged
        (fun other isOther => areOwn other (by simp [isOther]))
        (fun other isOther => fit other (by simp [isOther]))
    rcases changedUniques_cons_eq_ok areChanged with
      ⟨notFound, areChanged⟩ | ⟨action, new, rest, found, outcome, areOthers, rfl⟩
    · have untouched : body.renews item unique = false := by simp [UpdateBody.renews, notFound]
      simpa [untouched] using others areChanged
    · have renews_eq : body.renews item unique = decide (new ≠ item.present? unique.attr) := by
        simp [UpdateBody.renews, found, outcome]
      rw [exchange_cons, Option.bind_some]
      by_cases same : item.present? unique.attr = new
      · rw [if_pos same]
        simpa [renews_eq, same] using others areOthers
      · have renewed : body.renews item unique = true := by
          simpa [renews_eq] using Ne.symm same
        have isOwn := areOwn unique (by simp) renewed
        have isUnique := areUniques unique (by simp)
        obtain ⟨newClaims, exchanged⟩ := others areOthers
        have assigned : ∀ value ∈ new, action = .set value ∧ value.isNull = false :=
          fun value isNew => UpdateAction.set_of_outcome? (isNew ▸ outcome)
        obtain ⟨own, isClaim⟩ : ∃ own, entity.claimsOf unique.attr new = .ok own := by
          refine exists_claimsOf nodup isUnique isClaimed isOwn
            (fun value isNew => (assigned value isNew).2) ?_
          intro value isNew
          obtain ⟨rfl, notNull⟩ := assigned value isNew
          exact (fit unique (by simp) value found).resolve_left (by simp [notNull])
        refine ⟨own ++ newClaims, ?_⟩
        rw [if_neg same, isClaim, releasesOf_eq nodup isUnique isClaimed isOwn, exchanged]
        simp [renewed]
        rfl

theorem isOwn_of_exchange {exchanged : List WriteOperation × List WriteOperation}
    (exchange_eq : entity.exchange (some item) changed = .ok exchanged) :
    ∀ unique ∈ uniques, body.renews item unique = true → unique.IsOwn := by
  induction claimed generalizing changed exchanged with
  | nil => simp
  | @cons unique operation uniques claims isClaimed _ inductionHypothesis =>
    have later {changed : List (String × Option Value)} {exchanged : List WriteOperation × List WriteOperation}
        (areChanged : entity.changedUniques body uniques = .ok changed)
        (exchange_eq : entity.exchange (some item) changed = .ok exchanged)
        (own : body.renews item unique = true → unique.IsOwn) :
        ∀ other ∈ unique :: uniques, body.renews item other = true → other.IsOwn := by
      intro other isOther
      rcases List.mem_cons.1 isOther with rfl | isOther
      · exact own
      · exact inductionHypothesis (fun other isOther => areUniques other (by simp [isOther]))
          areChanged exchange_eq other isOther
    rcases changedUniques_cons_eq_ok areChanged with
      ⟨notFound, areChanged⟩ | ⟨action, new, rest, found, outcome, areOthers, rfl⟩
    · exact later areChanged exchange_eq (by simp [UpdateBody.renews, notFound])
    · rw [exchange_cons, Option.bind_some] at exchange_eq
      by_cases same : item.present? unique.attr = new
      · rw [if_pos same] at exchange_eq
        exact later areOthers exchange_eq (by simp [UpdateBody.renews, found, outcome, same])
      · rw [if_neg same] at exchange_eq
        obtain ⟨own, -, tail⟩ := bind_eq_ok.1 exchange_eq
        obtain ⟨released, isReleased, tail⟩ := bind_eq_ok.1 tail
        obtain ⟨others, exchange_eq, -⟩ := bind_eq_ok.1 tail
        exact later areOthers exchange_eq fun _ =>
          isOwn_of_releasesOf nodup (areUniques unique (by simp)) isClaimed isReleased

end Undo

/-! ## Undoing -/

def TypedUniques (entity : Entity) (body : UpdateBody) : Prop :=
  ∀ attr ∈ entity.attributes, attr.name ∈ entity.uniqueNames → ∀ value,
    body.get? attr.name = some (.set value) → value.isNull = true ∨ attr.type.admits value = true

/-- Every template can be made of a value that is generated. -/
theorem renders_generate (template : Template) (strategy : Strategy) (moment : Moment) :
    template.renders (strategy.generate moment) = true := by
  cases strategy <;> simp [Template.renders, Strategy.generate, Value.isScalar, Value.keyText?]

/-- The templates of records can be made of what an update gives unique attributes. -/
theorem fit_withGenerated {declaration : Declaration} (laysOut : declaration.LaysOut entity)
    {body : UpdateBody} (typed : entity.TypedUniques body) (draw : String → Moment)
    {unique : UniqueLayout} (isUnique : unique ∈ entity.uniques) {value : Value}
    (found : (entity.withGenerated draw body).get? unique.attr = some (.set value)) :
    value.isNull = true ∨ ∀ part ∈ unique.key.parts, unique.attr ∈ part.names →
      part.template.renders value = true := by
  rcases mem_withGenerated (UpdateBody.mem_of_get? found) with isMember | ⟨attr, -, rule, -, -, -, same⟩
  · by_cases isNull : value.isNull = true
    · exact .inl isNull
    · right
      intro part isPart isName
      obtain ⟨attr, isAttribute, name_eq, allowed⟩ :=
        (laysOut.unique isUnique).2.2 part isPart unique.attr isName
      have inNames : attr.name ∈ entity.uniqueNames :=
        List.mem_map.2 ⟨unique, isUnique, name_eq.symm⟩
      have admitted := typed attr isAttribute inNames value (name_eq ▸ UpdateBody.get?_of_mem isMember)
      exact Template.renders_of_admits allowed (admitted.resolve_left isNull)
  · obtain ⟨-, assigned⟩ := Prod.mk.inj same
    obtain rfl := UpdateAction.set.inj assigned
    exact .inr fun part _ _ => renders_generate part.template _ _

/-- Of the operations of an update only the releases delete. -/
theorem deletes_resolveUpdate {request : UpdateRequest} {changed : List (String × Option Value)}
    {prior : Option Item} :
    (entity.resolveUpdate (.update request) changed prior).toOption.map (·.filter (·.isDelete)) =
      (Prod.snd <$> entity.exchange prior changed).toOption := by
  unfold resolveUpdate
  cases exchanged : entity.exchange prior changed with
  | error error => rfl
  | ok outcome =>
    obtain ⟨claims, releases⟩ := outcome
    obtain ⟨areClaims, areReleases⟩ := each_of_exchange exchanged
    have noClaim : claims.filter (·.isDelete) = [] := by
      rw [List.filter_eq_nil_iff]
      intro operation isMember
      obtain ⟨record, claimed⟩ := areClaims operation isMember
      simp [not_isDelete_of_claim claimed]
    have allReleases : releases.filter (·.isDelete) = releases := by
      rw [List.filter_eq_self]
      intro operation isMember
      obtain ⟨record, rfl⟩ := areReleases operation isMember
      rfl
    show some ((.update request :: claims ++ releases).filter (·.isDelete)) = some releases
    rw [List.cons_append, List.filter_cons_of_neg (by simp [WriteOperation.isDelete]),
      List.filter_append, noClaim, allReleases, List.nil_append]

section Resolved

variable (nodup : entity.uniqueNames.Nodup) {item : Item} {claims : List WriteOperation}
  (claimed : List.Forall₂ (entity.Claims item) entity.uniques claims)
include nodup claimed

theorem toOption_resolveDelete (operation : WriteOperation) :
    (entity.resolveDelete operation (some item)).toOption =
      if ∀ unique ∈ entity.uniques, unique.IsOwn then
        some (operation :: claims.map (·.undone))
      else none := by
  refine toOption_eq_ite (fun areOwn => ?_) (fun operations resolved => ?_)
  · rw [resolveDelete, releases_eq_ok nodup (fun _ => id) claimed areOwn]
    rfl
  · obtain ⟨released, releases_eq, -⟩ := bind_eq_ok.1 resolved
    exact isOwn_of_releases nodup (fun _ => id) claimed releases_eq

theorem toOption_releases_exchange {declaration : Declaration} (laysOut : declaration.LaysOut entity)
    {draw : String → Moment} {body : UpdateBody} (typed : entity.TypedUniques body)
    {changed : List (String × Option Value)}
    (areChanged : entity.changedUniques (entity.withGenerated draw body) entity.uniques =
      .ok changed) :
    (Prod.snd <$> entity.exchange (some item) changed).toOption =
      if ∀ unique ∈ entity.uniques,
          (entity.withGenerated draw body).renews item unique = true → unique.IsOwn then
        some (((entity.uniques.zip claims).filter
          ((entity.withGenerated draw body).renews item ·.1)).map (·.2.undone))
      else none := by
  refine toOption_eq_ite (fun areOwn => ?_) (fun released isReleased => ?_)
  · obtain ⟨newClaims, exchanged⟩ := exists_exchange nodup (fun _ => id) claimed areChanged areOwn
      fun unique isUnique value found => fit_withGenerated laysOut typed draw isUnique found
    rw [exchanged]
    rfl
  · obtain ⟨exchanged, exchange_eq, -⟩ := map_eq_ok.1 isReleased
    exact isOwn_of_exchange nodup (fun _ => id) claimed areChanged exchange_eq

end Resolved

/-- What a create claimed is released by a delete, record for record and in the same order, if all
records are derived from the unique attributes alone; otherwise no delete of the item succeeds.
Likewise an update releases exactly what was claimed for the unique attributes that it gives
another value, if their records are derived from them alone, and otherwise does not succeed. -/
theorem undoes_create {declaration : Declaration} {defaultTable : Option Table}
    (compiled : declaration.compile defaultTable = .ok entity)
    (nodup : entity.attributeNames.Nodup) (hasUniques : entity.hasUniques = true)
    {draw : String → Moment} {attributes : Item} {options : CreateOptions} {put : PutRequest}
    {claims : List WriteOperation}
    (created : entity.createWrite draw attributes options = .ok (.direct (.put put :: claims))) :
    (∀ known key, entity.primaryKey known = .ok key →
      ∃ resolve, entity.deleteWrite known {} =
          .ok (.afterRead entity.name ⟨entity.table.name, key⟩ resolve) ∧
        (resolve (some put.item)).toOption =
          if ∀ unique ∈ entity.uniques, unique.IsOwn then
            some (.delete { table := entity.table.name, key } :: claims.map (·.undone))
          else none) ∧
    ∀ draw known body options name item resolve,
      entity.updateWrite draw known body options = .ok (.afterRead name item resolve) →
      entity.TypedUniques body →
      let renewed := (entity.withGenerated draw body).renews put.item
      (resolve (some put.item)).toOption.map (·.filter (·.isDelete)) =
        if ∀ unique ∈ entity.uniques, renewed unique = true → unique.IsOwn then
          some (((entity.uniques.zip claims).filter (renewed ·.1)).map (·.2.undone))
        else none := by
  have laysOut := Declaration.laysOut_of_compile compiled
  have nodupUniques : entity.uniqueNames.Nodup := by
    rw [attributeNames, laysOut.attributes] at nodup
    rw [uniqueNames_eq laysOut]
    exact nodup.sublist (List.filter_sublist.map _)
  obtain ⟨_, _, write_eq, writes⟩ := writesCreate_of_createWrite created
  obtain ⟨rfl, rfl⟩ : put = _ ∧ claims = _ := by simpa using write_eq
  have claimed := writes.claimsEach
  constructor
  · intro known key isKey
    refine ⟨entity.resolveDelete (.delete { table := entity.table.name, key }), ?_,
      toOption_resolveDelete nodupUniques claimed _⟩
    rw [deleteWrite, isKey]
    show (if entity.hasUniques = true then _ else _) = _
    rw [if_pos hasUniques]
    rfl
  · intro draw known body options name item resolve updated typed renewed
    obtain ⟨request, changes, changed, update⟩ := updateWrite_eq_ok updated
    have write_eq := update.write
    split at write_eq
    · cases write_eq
    · obtain ⟨rfl, rfl, rfl⟩ := PendingWrite.afterRead.inj write_eq
      rw [deletes_resolveUpdate]
      exact toOption_releases_exchange nodupUniques claimed laysOut typed update.uniques

end Entity

/-! ## Members of an organization -/

def memberDeclaration : Declaration where
  name := "MEMBER"
  table := some { name := "T", partitionKey := "PK", sortKey := none, indexes := ∅ }
  key := ⟨.text "MEMBER#\x7b\x7bid\x7d\x7d", none⟩
  attributes := [
    { name := "id", type := .string },
    { name := "org", type := .string },
    { name := "email", type := .string,
      unique := some (.explicit
        ⟨.text "ORG#\x7b\x7borg\x7d\x7d#EMAIL#\x7b\x7bemail\x7d\x7d", none⟩) }]

def memberEntity : Entity where
  name := "MEMBER"
  table := memberDeclaration.table.get rfl
  attributes := memberDeclaration.attributes
  key := ⟨⟨"PK", .text "MEMBER#\x7b\x7bid\x7d\x7d"⟩, none⟩
  indexes := []
  uniques := [⟨"email",
    ⟨⟨"PK", .text "ORG#\x7b\x7borg\x7d\x7d#EMAIL#\x7b\x7bemail\x7d\x7d"⟩, none⟩⟩]

def newMember : Item :=
  .ofList [("email", .string "a@x"), ("id", .string "1"), ("org", .string "acme")]

/-- The member is created with a record for the email, and cannot be deleted. -/
theorem not_undone_newMember :
    memberDeclaration.compile none = .ok memberEntity ∧
      ∃ put claim key resolve,
        memberEntity.createWrite (fun _ => ⟨0, fun _ => 0⟩) newMember {} =
          .ok (.direct [.put put, claim]) ∧
        memberEntity.deleteWrite (.single "id" (.string "1")) {} =
          .ok (.afterRead "MEMBER" ⟨"T", key⟩ resolve) ∧
        (resolve (some put.item)).toOption = none := by
  have compiled : memberDeclaration.compile none = .ok memberEntity := by
    with_unfolding_all rfl
  refine ⟨compiled, ?_⟩
  have creates : (memberEntity.createWrite (fun _ => ⟨0, fun _ => 0⟩) newMember {}).isOk = true := by
    decide +kernel
  have identifies : (memberEntity.primaryKey (.single "id" (.string "1"))).isOk = true := by
    decide +kernel
  have notOwn : ¬ ∀ unique ∈ memberEntity.uniques, unique.IsOwn := by decide +kernel
  cases created : memberEntity.createWrite (fun _ => ⟨0, fun _ => 0⟩) newMember {} with
  | error error => simp [created, Except.isOk, Except.toBool] at creates
  | ok write =>
    cases isKey : memberEntity.primaryKey (.single "id" (.string "1")) with
    | error error => simp [isKey, Except.isOk, Except.toBool] at identifies
    | ok key =>
      obtain ⟨put, claims, rfl, writes⟩ := Entity.writesCreate_of_createWrite created
      obtain ⟨claim, rfl⟩ := List.length_eq_one_iff.1 writes.claimsEach.length_eq.symm
      obtain ⟨deletes, -⟩ := Entity.undoes_create compiled (by decide) rfl created
      obtain ⟨resolve, deleted, resolved⟩ := deletes _ key isKey
      rw [if_neg notOwn] at resolved
      exact ⟨put, claim, key, resolve, rfl, deleted, resolved⟩

end SingleTable
