import SingleTable.Proofs.Index.Agreement
import SingleTable.Proofs.Unique.Exchange

/-!
# The transfers of updates and deletes

An update moves the unique attributes that its body assigns or clears, and a delete moves all of
them to nothing.  What either believes to be the old value is what the item held when it was
read.
-/

namespace SingleTable

namespace Entity

variable {entity : Entity}

/-! ## Update -/

/-- The transfer of an update: attributes that the body assigns or clears are believed to hold
what they held when the item was read. -/
def updateTransfer (key : Item) (prior : Option Item) (body : UpdateBody) : Transfer where
  key := key
  move := fun attr => ((body.get? attr).bind (·.outcome?)).map fun new =>
    (prior.bind (·.present? attr), new)

def TextualBody (entity : Entity) (body : UpdateBody) : Prop :=
  ∀ attr ∈ entity.uniqueNames, ∀ value, body.get? attr = some (.set value) → value.isNull = false →
    ∃ text, value = .string text

theorem textual_of_outcome {body : UpdateBody} (textual : entity.TextualBody body) {attr : String}
    (isUnique : attr ∈ entity.uniqueNames) {action : UpdateAction}
    (found : body.get? attr = some action) {value : Value}
    (outcome : action.outcome? = some (some value)) : ∃ text, value = .string text := by
  obtain ⟨rfl, notNull⟩ := UpdateAction.set_of_outcome? outcome
  exact textual attr isUnique value found notNull

theorem updateTransfer_move {key : Item} {prior : Option Item} {body : UpdateBody} {attr : String}
    {old new : Option Value} :
    (updateTransfer key prior body).move attr = some (old, new) ↔
      old = prior.bind (·.present? attr) ∧
        ∃ action, body.get? attr = some action ∧ action.outcome? = some new := by
  simp only [updateTransfer, Option.map_eq_some_iff, Option.bind_eq_some_iff, Prod.mk.injEq]
  constructor
  · rintro ⟨new', ⟨action, found, outcome⟩, rfl, rfl⟩
    exact ⟨rfl, action, found, outcome⟩
  · rintro ⟨rfl, action, found, outcome⟩
    exact ⟨new, ⟨action, found, outcome⟩, rfl, rfl⟩

section Changed

variable {body : UpdateBody} {changed : List (String × Option Value)}
  (areChanged : entity.changedUniques body entity.uniques = .ok changed) {attr : String}
  (isUnique : attr ∈ entity.uniqueNames) {key : Item} {prior : Option Item}
include areChanged isUnique

/-- Every action on a unique attribute has an outcome, and it is a change. -/
theorem exists_change {action : UpdateAction} (found : body.get? attr = some action) :
    ∃ new, action.outcome? = some new ∧ (attr, new) ∈ changed := by
  obtain ⟨unique, isMember, rfl⟩ := List.mem_map.1 isUnique
  exact (changedUniques_eq_ok areChanged).1 unique isMember action found

/-- The transfer of an update moves what the body changes. -/
theorem updateTransfer_move_iff {old new : Option Value} :
    (updateTransfer key prior body).move attr = some (old, new) ↔
      old = prior.bind (·.present? attr) ∧ (attr, new) ∈ changed := by
  rw [updateTransfer_move, and_congr_right_iff]
  rintro -
  constructor
  · rintro ⟨action, found, outcome⟩
    obtain ⟨new', outcome', isChange⟩ := exists_change areChanged isUnique found
    rw [outcome] at outcome'
    obtain rfl := Option.some.inj outcome'
    exact isChange
  · intro isChange
    exact ((changedUniques_eq_ok areChanged).2 _ isChange).2

theorem get?_of_unmoved (unmoved : (updateTransfer key prior body).move attr = none) :
    body.get? attr = none := by
  cases found : body.get? attr with
  | none => rfl
  | some action =>
    obtain ⟨new, -, isChange⟩ := exists_change areChanged isUnique found
    rw [(updateTransfer_move_iff areChanged isUnique).2 ⟨rfl, isChange⟩] at unmoved
    cases unmoved

theorem unmoved_of_unchanged (unchanged : changed = []) :
    (updateTransfer key prior body).move attr = none := by
  cases move_eq : (updateTransfer key prior body).move attr with
  | none => rfl
  | some move =>
    obtain ⟨-, isChange⟩ := (updateTransfer_move_iff areChanged isUnique).1 move_eq
    rw [unchanged] at isChange
    cases isChange

end Changed

/-- The operations of an update submit its transfer, given what the item held when it was read. -/
theorem submits_update (enforces : entity.Enforces) (keysApart : entity.KeysApart)
    {attributes : Item} {body : UpdateBody} {request : UpdateRequest}
    {changed : List (String × Option Value)}
    (isKey : entity.primaryKey attributes = .ok request.key)
    (areChanged : entity.changedUniques body entity.uniques = .ok changed)
    (textual : entity.TextualBody body) {prior : Option Item}
    (priorTextual : entity.TextualItem prior) {operations : List WriteOperation}
    (resolved : entity.resolveUpdate (.update request) changed prior = .ok operations) :
    (updateTransfer request.key prior body).Submits entity (.update request) operations := by
  obtain ⟨⟨claims, releases⟩, exchanged, answer⟩ := bind_eq_ok.1 resolved
  obtain rfl := Except.ok.inj answer
  obtain ⟨-, sound⟩ := changedUniques_eq_ok areChanged
  have isUnique : ∀ change ∈ changed, change.1 ∈ entity.uniqueNames :=
    fun change isChange => (sound change isChange).1
  have exchanges := exchange_eq_ok enforces priorTextual (fun change isChange => by
    obtain ⟨isUnique, action, found, outcome⟩ := sound change isChange
    refine ⟨isUnique, fun value value_eq => ?_⟩
    rw [value_eq] at outcome
    exact textual_of_outcome textual isUnique found outcome) exchanged
  constructor
  · simp
  · rfl
  · exact keysApart _ _ isKey
  · intro attr isUnique old value move_eq
    obtain ⟨-, action, found, outcome⟩ := updateTransfer_move.1 move_eq
    exact textual_of_outcome textual isUnique found outcome
  · intro operation isOperation
    rcases List.mem_cons.1 isOperation with isMain | isOperation
    · exact .inl isMain
    · rcases List.mem_append.1 isOperation with isClaim | isRelease
      · obtain ⟨attr, text, isChange, differs, claimed⟩ := exchanges.claim operation isClaim
        have isUnique := isUnique _ isChange
        exact .inr (.inl ⟨attr, isUnique, text,
          ⟨_, (updateTransfer_move_iff areChanged isUnique).2 ⟨rfl, isChange⟩, differs⟩, claimed⟩)
      · obtain ⟨attr, text, new, isChange, holds, differs, released⟩ :=
          (exchanges.release operation).1 isRelease
        have isUnique := isUnique _ isChange
        exact .inr (.inr ⟨attr, isUnique, text,
          ⟨new, (updateTransfer_move_iff areChanged isUnique).2 ⟨holds.symm, isChange⟩, differs⟩,
          released⟩)
  · rintro attr isUnique text ⟨old, move_eq, differs⟩
    obtain ⟨rfl, isChange⟩ := (updateTransfer_move_iff areChanged isUnique).1 move_eq
    obtain ⟨operation, isClaim, claimed⟩ := exchanges.claimed attr text isChange differs
    exact ⟨operation, by simp [isClaim], claimed⟩
  · rintro attr isUnique text ⟨new, move_eq, differs⟩
    obtain ⟨holds, isChange⟩ := (updateTransfer_move_iff areChanged isUnique).1 move_eq
    have isRelease := (exchanges.release _).2 ⟨attr, text, new, isChange, holds.symm, differs, rfl⟩
    simp [isRelease]

theorem submits_alone {transfer : Transfer} {main : WriteOperation}
    (isItem : main.key? entity.table = some transfer.key) (live : entity.Live transfer.key)
    (unmoved : ∀ attr ∈ entity.uniqueNames, transfer.move attr = none) :
    transfer.Submits entity main [main] := by
  constructor
  · simp
  · exact isItem
  · exact live
  · intro attr isUnique old value move_eq
    rw [unmoved attr isUnique] at move_eq
    cases move_eq
  · intro operation isOperation
    exact .inl (List.mem_singleton.1 isOperation)
  · rintro attr isUnique text ⟨old, move_eq, -⟩
    rw [unmoved attr isUnique] at move_eq
    cases move_eq
  · rintro attr isUnique text ⟨new, move_eq, -⟩
    rw [unmoved attr isUnique] at move_eq
    cases move_eq

/-- After an update an attribute has what the action on it tells. -/
theorem present?_of_outcome {service : Service} {actions : List (String × UpdateAction)}
    {before after : Item}
    (executed : service.execute (byClause (actionChanges actions)) before = some after) {attr : String}
    (isWord : Grammar.IsWord attr) {action : UpdateAction} (isAction : (attr, action) ∈ actions)
    {new : Option Value} (outcome : action.outcome? = some new) : after.present? attr = new := by
  rcases UpdateAction.outcome?_eq_some outcome with ⟨rfl, rfl⟩ | ⟨value, rfl, rfl⟩
  · rw [Item.present?, Service.get?_of_remove executed isWord isAction, Option.filter_none]
  · rw [Item.present?, Service.get?_of_set executed isWord isAction]

/-- An update that finds no item starts from the key, in which no unique attribute has a value. -/
theorem present?_getD_key (enforces : entity.Enforces) {attributes key : Item}
    (isKey : entity.primaryKey attributes = .ok key) (rows : Rows) {attr : String}
    (isUnique : attr ∈ entity.uniqueNames) :
    Item.present? ((rows key).getD key) attr = rows.held key attr := by
  unfold Rows.held
  cases row_eq : rows key with
  | some before => rfl
  | none =>
    have notKey : attr ∉ entity.key.parts.map (·.attr) := by
      rw [enforces.keyed]
      exact fun isKey => enforces.wellNamed.physical_ne_attribute
        (keyAttributes_subset enforces isKey) (enforces.declared attr isUnique) rfl
    simp [Item.present?, Key.get?_resolve_of_not_mem isKey notKey]

/-- The changes that an update makes are those that its transfer says. -/
theorem fits_update (enforces : entity.Enforces) {draw : String → Moment} {attributes : Item}
    {body : UpdateBody} {options : UpdateOptions} {write : PendingWrite} {request : UpdateRequest}
    {changes : KeyChanges} {changed : List (String × Option Value)}
    (writes : entity.WritesUpdate draw attributes body options write request changes changed)
    (declared : body.Declared entity) (live : entity.Live request.key) {rows : Rows}
    (textualRows : entity.Textual rows) (prior : Option Item) {service : Service} {row : Option Item}
    (isPlan : service.plan entity.table rows (.update request) = some (request.key, row)) :
    (updateTransfer request.key prior (entity.withGenerated draw body)).Fits entity rows row := by
  obtain ⟨-, -, read, item, read_eq, executed, -, plan_eq⟩ := Service.plan_update isPlan
  obtain ⟨-, rfl⟩ := Prod.mk.inj plan_eq
  have ofIndexes : ∀ action ∈ changes.actions, action.1 ∈ entity.indexAttributes :=
    fun action isAction => mem_indexAttributes_of_affected writes.affected isAction
  have declared := declared_withGenerated enforces.wellNamed draw declared
  have plain : ∀ entry ∈ (entity.withGenerated draw body).actions ++ changes.actions,
      Path.IsPlain entry.1 := by
    intro entry isEntry
    rcases List.mem_append.1 isEntry with isEntry | isEntry
    · exact (declared entry isEntry).1
    · exact Path.isPlain_of_isWord (enforces.wellNamed.isWord_physical
        (mem_physical_of_index (ofIndexes entry isEntry)))
  rw [writes.read plain] at read_eq
  obtain rfl := Option.some.inj read_eq
  intro attr isUnique
  have isDeclared := enforces.declared attr isUnique
  constructor
  · intro old new move_eq
    obtain ⟨-, action, found, outcome⟩ := updateTransfer_move.1 move_eq
    exact present?_of_outcome executed (enforces.wellNamed.isWord_attribute isDeclared)
      (List.mem_append_left _ (UpdateBody.mem_of_get? found)) outcome
  · intro unmoved
    have before_eq := present?_getD_key enforces writes.key rows isUnique
    refine Eq.trans ?_ before_eq
    apply present?_of_unnamed enforces.wellNamed ofIndexes executed isDeclared
      (get?_of_unmoved writes.uniques isUnique unmoved)
    intro value isPresent
    rw [before_eq] at isPresent
    obtain ⟨text, rfl⟩ := textualRows attr isUnique _ value live isPresent
    rfl

/-- A client that knows the item expects what it holds. -/
theorem expects_update (rows : Rows) (key : Item) (body : UpdateBody) :
    (updateTransfer key (rows key) body).Expects entity rows :=
  fun _ _ _ _ move_eq => (updateTransfer_move.1 move_eq).1.symm

/-! ## Delete -/

/-- The transfer of a delete: every unique attribute is believed to hold what it held when the item
was read, and is to hold nothing. -/
def deleteTransfer (key : Item) (prior : Option Item) : Transfer where
  key := key
  move := fun attr => some (prior.bind (·.present? attr), none)

theorem submits_delete (enforces : entity.Enforces) {request : DeleteRequest}
    (live : entity.Live request.key) {prior : Option Item} (priorTextual : entity.TextualItem prior)
    {operations : List WriteOperation}
    (resolved : entity.resolveDelete (.delete request) prior = .ok operations) :
    (deleteTransfer request.key prior).Submits entity (.delete request) operations := by
  obtain ⟨released, rfl, mem_released⟩ : ∃ released, operations = .delete request :: released ∧
      ∀ operation, operation ∈ released ↔ ∃ attr ∈ entity.uniqueNames, ∃ text,
        prior.bind (·.present? attr) = some (.string text) ∧
          operation = entity.release (entity.recordKey attr text) := by
    unfold resolveDelete at resolved
    split at resolved
    · obtain rfl := Except.ok.inj resolved
      exact ⟨[], rfl, by simp⟩
    · next item =>
      obtain ⟨released, releases_eq, answer⟩ := bind_eq_ok.1 resolved
      obtain rfl := Except.ok.inj answer
      refine ⟨released, rfl, ?_⟩
      intro operation
      rw [mem_releases enforces priorTextual
        (fun unique isMember => List.mem_map.2 ⟨unique, isMember, rfl⟩) releases_eq]
      simp [uniqueNames]
  constructor
  · simp
  · rfl
  · exact live
  · intro attr isUnique old value move_eq
    cases (Prod.mk.inj (Option.some.inj move_eq)).2
  · intro operation isOperation
    rcases List.mem_cons.1 isOperation with isMain | isRelease
    · exact .inl isMain
    · obtain ⟨attr, isUnique, text, holds, released⟩ := (mem_released operation).1 isRelease
      exact .inr (.inr ⟨attr, isUnique, text, ⟨none, by simp [deleteTransfer, holds], by simp⟩, released⟩)
  · rintro attr - text ⟨old, move_eq, -⟩
    cases (Prod.mk.inj (Option.some.inj move_eq)).2
  · rintro attr isUnique text ⟨new, move_eq, -⟩
    obtain ⟨holds, -⟩ := Prod.mk.inj (Option.some.inj move_eq)
    exact List.mem_cons_of_mem _ ((mem_released _).2 ⟨attr, isUnique, text, holds, rfl⟩)

/-- A delete leaves nothing, as its transfer says. -/
theorem fits_delete {request : DeleteRequest} (prior : Option Item) {rows : Rows} {service : Service}
    {row : Option Item}
    (isPlan : service.plan entity.table rows (.delete request) = some (request.key, row)) :
    (deleteTransfer request.key prior).Fits entity rows row := by
  obtain ⟨-, rfl⟩ := Prod.mk.inj (Service.plan_delete isPlan)
  intro attr _
  constructor
  · intro old new move_eq
    exact (Prod.mk.inj (Option.some.inj move_eq)).2
  · intro unmoved
    cases unmoved

theorem expects_delete (rows : Rows) (key : Item) :
    (deleteTransfer key (rows key)).Expects entity rows :=
  fun _ _ _ _ move_eq => (Prod.mk.inj (Option.some.inj move_eq)).1

end Entity

end SingleTable
