import SingleTable.Proofs.Index.Impact
import SingleTable.Proofs.Unique.Creation

/-!
# Exchanging unique values

An update that changes unique values claims the new ones and releases the old ones, except where
they are the same; a delete releases all of them.  Which are new follows from the body of the
update, and which are old from the item that was read.
-/

namespace SingleTable

open Grammar

/-! ## What a body changes -/

/-- The value that an attribute has after an action, if the action alone says so: none if it is
cleared. -/
def UpdateAction.outcome? (action : UpdateAction) : Option (Option Value) :=
  if action.clears then some none else action.literal?.map some

namespace UpdateAction

variable {action : UpdateAction}

/-- Only removals and assignments tell what the attribute has then; null counts as nothing. -/
theorem outcome?_eq_some {new : Option Value} (outcome : action.outcome? = some new) :
    action = .remove ∧ new = none ∨
      ∃ value, action = .set value ∧ new = (some value).filter (!·.isNull) := by
  unfold outcome? at outcome
  split at outcome
  · next clears =>
    obtain rfl := Option.some.inj outcome
    cases action with
    | remove => exact .inl ⟨rfl, rfl⟩
    | set value =>
      have isNull : value.isNull = true := clears
      exact .inr ⟨value, rfl, by simp [Option.filter_some, isNull]⟩
    | increment _ | decrement _ | setIfAbsent _ | listAppend _ | add _ | removeAt _ | delete _ =>
      cases clears
  · next notCleared =>
    obtain ⟨value, literal_eq, rfl⟩ := Option.map_eq_some_iff.1 outcome
    obtain ⟨rfl, -⟩ := literal?_eq_some_iff.1 literal_eq
    have notNull : value.isNull = false := by simpa [clears] using notCleared
    exact .inr ⟨value, rfl, by simp [Option.filter_some, notNull]⟩

/-- Only an assignment leaves a value that the action alone tells. -/
theorem set_of_outcome? {value : Value} (outcome : action.outcome? = some (some value)) :
    action = .set value ∧ value.isNull = false := by
  rcases outcome?_eq_some outcome with ⟨-, isNone⟩ | ⟨assigned, rfl, new_eq⟩
  · cases isNone
  · obtain ⟨same, notNull⟩ := Option.filter_eq_some_iff.1 new_eq.symm
    obtain rfl := Option.some.inj same
    exact ⟨rfl, by simpa using notNull⟩

end UpdateAction

namespace Entity

variable {entity : Entity}

/-- The first of the unique attributes is left alone, or its change comes first. -/
theorem changedUniques_cons_eq_ok {body : UpdateBody} {unique : UniqueLayout}
    {uniques : List UniqueLayout} {changed : List (String × Option Value)}
    (areChanged : entity.changedUniques body (unique :: uniques) = .ok changed) :
    (body.get? unique.attr = none ∧ entity.changedUniques body uniques = .ok changed) ∨
      ∃ action new others, body.get? unique.attr = some action ∧ action.outcome? = some new ∧
        entity.changedUniques body uniques = .ok others ∧ changed = (unique.attr, new) :: others := by
  unfold changedUniques at areChanged
  split at areChanged
  · next notFound => exact .inl ⟨notFound, areChanged⟩
  · next action found =>
    split at areChanged
    · next clears =>
      obtain ⟨others, areOthers, answer⟩ := bind_eq_ok.1 areChanged
      exact .inr ⟨action, none, others, found, by simp [UpdateAction.outcome?, clears], areOthers,
        (Except.ok.inj answer).symm⟩
    · next notCleared =>
      split at areChanged
      · next value literal =>
        obtain ⟨others, areOthers, answer⟩ := bind_eq_ok.1 areChanged
        exact .inr ⟨action, some value, others, found,
          by simp [UpdateAction.outcome?, notCleared, literal], areOthers, (Except.ok.inj answer).symm⟩
      · cases areChanged

/-- The changes of unique values are what the body says about unique attributes. -/
theorem changedUniques_eq_ok {body : UpdateBody} {uniques : List UniqueLayout}
    {changed : List (String × Option Value)}
    (areChanged : entity.changedUniques body uniques = .ok changed) :
    (∀ unique ∈ uniques, ∀ action, body.get? unique.attr = some action →
        ∃ new, action.outcome? = some new ∧ (unique.attr, new) ∈ changed) ∧
      ∀ change ∈ changed, change.1 ∈ uniques.map (·.attr) ∧
        ∃ action, body.get? change.1 = some action ∧ action.outcome? = some change.2 := by
  induction uniques generalizing changed with
  | nil =>
    obtain rfl := Except.ok.inj areChanged
    simp
  | cons unique uniques inductionHypothesis =>
    -- the first attribute is left alone or its change is the first one; the rest is the induction
    rcases changedUniques_cons_eq_ok areChanged with
      ⟨notFound, areChanged⟩ | ⟨action, new, others, found, outcome, areOthers, rfl⟩
    · obtain ⟨complete, sound⟩ := inductionHypothesis areChanged
      constructor
      · intro other isMember action found
        rcases List.mem_cons.1 isMember with rfl | isMember
        · rw [notFound] at found
          cases found
        · exact complete other isMember action found
      · intro change isChange
        obtain ⟨isMember, found⟩ := sound change isChange
        exact ⟨by simp only [List.map_cons, List.mem_cons, isMember, or_true], found⟩
    · obtain ⟨complete, sound⟩ := inductionHypothesis areOthers
      constructor
      · intro other isMember action' found'
        rcases List.mem_cons.1 isMember with rfl | isMember
        · rw [found] at found'
          obtain rfl := Option.some.inj found'
          exact ⟨new, outcome, by simp⟩
        · obtain ⟨new', outcome', isChange⟩ := complete other isMember action' found'
          exact ⟨new', outcome', by simp [isChange]⟩
      · intro change isChange
        rcases List.mem_cons.1 isChange with rfl | isChange
        · exact ⟨by simp, action, found, outcome⟩
        · obtain ⟨isMember, found⟩ := sound change isChange
          exact ⟨by simp only [List.map_cons, List.mem_cons, isMember, or_true], found⟩

/-! ## Claims and releases -/

section Exchange

variable (enforces : entity.Enforces) {name : String} (isUnique : name ∈ entity.uniqueNames)
  {held : Option Value} (textual : ∀ value, held = some value → ∃ text, value = .string text)
include enforces isUnique textual

theorem claimsOf_eq_ok {claims : List WriteOperation} (claimed : entity.claimsOf name held = .ok claims) :
    (∀ operation ∈ claims, ∃ text, held = some (.string text) ∧
        entity.claim (entity.recordKey name text) = .ok operation) ∧
      ∀ text, held = some (.string text) →
        ∃ operation ∈ claims, entity.claim (entity.recordKey name text) = .ok operation := by
  cases held with
  | none =>
    obtain rfl := Except.ok.inj claimed
    simp
  | some value =>
    obtain ⟨text, rfl⟩ := textual value rfl
    simp only [claimsOf, uniqueRecord_string enforces isUnique text] at claimed
    obtain ⟨record, record_eq, claimed⟩ := bind_eq_ok.1 claimed
    obtain rfl := Except.ok.inj record_eq
    obtain ⟨operation, isClaim, answer⟩ := bind_eq_ok.1 claimed
    obtain rfl := Except.ok.inj answer
    constructor
    · intro other isMember
      obtain rfl := List.mem_singleton.1 isMember
      exact ⟨text, rfl, isClaim⟩
    · intro other other_eq
      obtain rfl := Value.string.inj (Option.some.inj other_eq)
      exact ⟨operation, by simp, isClaim⟩

theorem mem_releasesOf {releases : List WriteOperation}
    (released : entity.releasesOf name held = .ok releases) {operation : WriteOperation} :
    operation ∈ releases ↔ ∃ text, held = some (.string text) ∧
      operation = entity.release (entity.recordKey name text) := by
  cases held with
  | none =>
    obtain rfl := Except.ok.inj released
    simp
  | some value =>
    obtain ⟨text, rfl⟩ := textual value rfl
    simp only [releasesOf, uniqueRecord_string enforces isUnique text] at released
    obtain rfl := Except.ok.inj released
    rw [List.mem_singleton]
    constructor
    · rintro rfl
      exact ⟨text, rfl, rfl⟩
    · rintro ⟨other, other_eq, rfl⟩
      obtain rfl := Value.string.inj (Option.some.inj other_eq)
      rfl

end Exchange

/-- The claims and releases of an exchange are those of the values that it changes. -/
structure Exchanges (entity : Entity) (prior : Option Item) (changes : List (String × Option Value))
    (claims releases : List WriteOperation) : Prop where
  claim : ∀ operation ∈ claims, ∃ name text, (name, some (.string text)) ∈ changes ∧
    prior.bind (·.present? name) ≠ some (.string text) ∧
    entity.claim (entity.recordKey name text) = .ok operation
  claimed : ∀ name text, (name, some (.string text)) ∈ changes →
    prior.bind (·.present? name) ≠ some (.string text) →
    ∃ operation ∈ claims, entity.claim (entity.recordKey name text) = .ok operation
  release : ∀ operation, operation ∈ releases ↔ ∃ name text new, (name, new) ∈ changes ∧
    prior.bind (·.present? name) = some (.string text) ∧ new ≠ some (.string text) ∧
    operation = entity.release (entity.recordKey name text)

namespace Exchanges

variable {prior : Option Item}

theorem append {changes otherChanges : List (String × Option Value)}
    {claims releases otherClaims otherReleases : List WriteOperation}
    (exchanges : entity.Exchanges prior changes claims releases)
    (others : entity.Exchanges prior otherChanges otherClaims otherReleases) :
    entity.Exchanges prior (changes ++ otherChanges) (claims ++ otherClaims)
      (releases ++ otherReleases) := by
  constructor
  · intro operation isClaim
    rcases List.mem_append.1 isClaim with isClaim | isClaim
    · obtain ⟨name, text, isChange, rest⟩ := exchanges.claim operation isClaim
      exact ⟨name, text, List.mem_append_left _ isChange, rest⟩
    · obtain ⟨name, text, isChange, rest⟩ := others.claim operation isClaim
      exact ⟨name, text, List.mem_append_right _ isChange, rest⟩
  · intro name text isChange differs
    rcases List.mem_append.1 isChange with isChange | isChange
    · obtain ⟨operation, isClaim, claimed⟩ := exchanges.claimed name text isChange differs
      exact ⟨operation, List.mem_append_left _ isClaim, claimed⟩
    · obtain ⟨operation, isClaim, claimed⟩ := others.claimed name text isChange differs
      exact ⟨operation, List.mem_append_right _ isClaim, claimed⟩
  · intro operation
    rw [List.mem_append, exchanges.release operation, others.release operation]
    simp only [List.mem_append, or_and_right, exists_or]

/-- A value that stays is neither claimed nor released. -/
theorem unchanged {name : String} {new : Option Value}
    (same : prior.bind (·.present? name) = new) :
    entity.Exchanges prior [(name, new)] [] [] := by
  subst same
  constructor
  · simp
  · intro other text isChange differs
    obtain ⟨rfl, same⟩ := Prod.mk.inj (List.mem_singleton.1 isChange)
    exact absurd same.symm differs
  · intro operation
    constructor
    · intro isRelease
      cases isRelease
    · rintro ⟨other, text, new, isChange, holds, differs, -⟩
      obtain ⟨rfl, rfl⟩ := Prod.mk.inj (List.mem_singleton.1 isChange)
      exact absurd holds differs

/-- A value that changes is claimed, and what it was before is released. -/
theorem changed (enforces : entity.Enforces) (priorTextual : entity.TextualItem prior) {name : String}
    (isUnique : name ∈ entity.uniqueNames) {new : Option Value}
    (textual : ∀ value, new = some value → ∃ text, value = .string text)
    (differs : prior.bind (·.present? name) ≠ new) {claims releases : List WriteOperation}
    (areClaims : entity.claimsOf name new = .ok claims)
    (areReleases : entity.releasesOf name (prior.bind (·.present? name)) = .ok releases) :
    entity.Exchanges prior [(name, new)] claims releases := by
  obtain ⟨sound, complete⟩ := claimsOf_eq_ok enforces isUnique textual areClaims
  constructor
  · intro operation isClaim
    obtain ⟨text, rfl, claimed⟩ := sound operation isClaim
    exact ⟨name, text, by simp, differs, claimed⟩
  · intro other text isChange _
    obtain ⟨rfl, rfl⟩ := Prod.mk.inj (List.mem_singleton.1 isChange)
    exact complete text rfl
  · intro operation
    rw [mem_releasesOf enforces isUnique (priorTextual name isUnique) areReleases]
    constructor
    · rintro ⟨text, holds, released⟩
      exact ⟨name, text, new, by simp, holds, fun same => differs (holds.trans same.symm), released⟩
    · rintro ⟨other, text, otherNew, isChange, holds, -, released⟩
      obtain ⟨rfl, rfl⟩ := Prod.mk.inj (List.mem_singleton.1 isChange)
      exact ⟨text, holds, released⟩

end Exchanges

theorem exchange_eq_ok (enforces : entity.Enforces) {prior : Option Item}
    (priorTextual : entity.TextualItem prior) {changes : List (String × Option Value)}
    (textual : ∀ change ∈ changes, change.1 ∈ entity.uniqueNames ∧
      ∀ value, change.2 = some value → ∃ text, value = .string text)
    {claims releases : List WriteOperation}
    (exchanged : entity.exchange prior changes = .ok (claims, releases)) :
    entity.Exchanges prior changes claims releases := by
  induction changes generalizing claims releases with
  | nil =>
    obtain ⟨rfl, rfl⟩ := Prod.mk.inj (Except.ok.inj exchanged)
    exact ⟨by simp, by simp, by simp⟩
  | cons change changes inductionHypothesis =>
    obtain ⟨name, new⟩ := change
    obtain ⟨isUnique, newTextual⟩ := textual (name, new) (by simp)
    have othersTextual := fun change isMember =>
      textual change (List.mem_cons_of_mem (name, new) isMember)
    rw [exchange_cons] at exchanged
    split at exchanged
    · next same =>
      exact (Exchanges.unchanged same).append (inductionHypothesis othersTextual exchanged)
    · next differs =>
      obtain ⟨ownClaims, areClaims, rest⟩ := bind_eq_ok.1 exchanged
      obtain ⟨ownReleases, areReleases, rest⟩ := bind_eq_ok.1 rest
      obtain ⟨⟨otherClaims, otherReleases⟩, areOthers, answer⟩ := bind_eq_ok.1 rest
      obtain ⟨rfl, rfl⟩ := Prod.mk.inj (Except.ok.inj answer)
      exact (Exchanges.changed enforces priorTextual isUnique newTextual differs areClaims
        areReleases).append (inductionHypothesis othersTextual areOthers)

/-! ## Releasing all values -/

theorem mem_releases (enforces : entity.Enforces) {prior : Item}
    (textual : entity.TextualItem (some prior)) {uniques : List UniqueLayout}
    (known : ∀ unique ∈ uniques, unique.attr ∈ entity.uniqueNames) {released : List WriteOperation}
    (releases_eq : entity.releases prior uniques = .ok released) {operation : WriteOperation} :
    operation ∈ released ↔ ∃ unique ∈ uniques, ∃ text,
      prior.present? unique.attr = some (.string text) ∧
        operation = entity.release (entity.recordKey unique.attr text) := by
  induction uniques generalizing released with
  | nil =>
    obtain rfl := Except.ok.inj releases_eq
    simp
  | cons unique uniques inductionHypothesis =>
    rw [releases_cons] at releases_eq
    obtain ⟨first, isFirst, rest⟩ := bind_eq_ok.1 releases_eq
    obtain ⟨others, areOthers, answer⟩ := bind_eq_ok.1 rest
    obtain rfl := Except.ok.inj answer
    have isUnique := known unique (by simp)
    rw [List.mem_append, mem_releasesOf enforces isUnique (textual _ isUnique) isFirst,
      inductionHypothesis (fun other isMember => known other (by simp [isMember])) areOthers]
    simp

end Entity

end SingleTable
