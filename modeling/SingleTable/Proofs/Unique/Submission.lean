import SingleTable.Proofs.Entity.Guards
import SingleTable.Proofs.Unique.Transfer

/-!
# Submitting transfers

A transfer is submitted as one write: the operation on the item itself, a claim for each new
value and a release for each old one.  If the service carries the write out, it leads where the
transfer says.
-/

namespace SingleTable

open Grammar

namespace Entity

variable {entity : Entity}

theorem keyAttributes_subset (enforces : entity.Enforces) {name : String}
    (isKey : name ∈ entity.table.keyAttributes) : name ∈ entity.physicalAttributes := by
  rw [physicalAttributes_eq, List.mem_append, enforces.keyed]
  exact .inl isKey

theorem isWord_keyAttributes (enforces : entity.Enforces) :
    ∀ name ∈ entity.table.keyAttributes, IsWord name :=
  fun _ isKey => enforces.wellNamed.isWord_physical (keyAttributes_subset enforces isKey)

end Entity

/-- Operations that carry out a transfer by an operation on its item. -/
structure Transfer.Submits (transfer : Transfer) (entity : Entity) (main : WriteOperation)
    (operations : List WriteOperation) : Prop where
  isMain : main ∈ operations
  item : main.key? entity.table = some transfer.key
  live : entity.Live transfer.key
  textual : ∀ attr ∈ entity.uniqueNames, ∀ old value, transfer.move attr = some (old, some value) →
    ∃ text, value = .string text
  each : ∀ operation ∈ operations, operation = main ∨
    (∃ attr ∈ entity.uniqueNames, ∃ text, transfer.Claims attr (.string text) ∧
      entity.claim (entity.recordKey attr text) = .ok operation) ∨
    ∃ attr ∈ entity.uniqueNames, ∃ text, transfer.Releases attr (.string text) ∧
      operation = entity.release (entity.recordKey attr text)
  claims : ∀ attr ∈ entity.uniqueNames, ∀ text, transfer.Claims attr (.string text) →
    ∃ operation ∈ operations, entity.claim (entity.recordKey attr text) = .ok operation
  releases : ∀ attr ∈ entity.uniqueNames, ∀ text, transfer.Releases attr (.string text) →
    entity.release (entity.recordKey attr text) ∈ operations

/-- What the operation on the item of a transfer makes of it. -/
def Transfer.Fits (transfer : Transfer) (entity : Entity) (before : Rows) (row : Option Item) : Prop :=
  ∀ attr ∈ entity.uniqueNames,
    (∀ old new, transfer.move attr = some (old, new) → row.bind (·.present? attr) = new) ∧
    (transfer.move attr = none → row.bind (·.present? attr) = before.held transfer.key attr)

namespace Entity

section Submission

variable {entity : Entity} {transfer : Transfer} {main : WriteOperation}
  {operations : List WriteOperation} (enforces : entity.Enforces)
  (submits : transfer.Submits entity main operations)
include enforces

theorem live_ne_recordKey {key : Item} (live : entity.Live key) {attr text : String}
    (isUnique : attr ∈ entity.uniqueNames) : key ≠ entity.recordKey attr text := by
  rintro rfl
  exact live ((isRecord_iff enforces).2 ⟨attr, isUnique, text, rfl⟩)

theorem key?_of_claim {attr text : String} {operation : WriteOperation}
    (claimed : entity.claim (entity.recordKey attr text) = .ok operation) :
    operation.key? entity.table = some (entity.recordKey attr text) := by
  obtain ⟨request, rfl, item_eq, -⟩ := claim_eq_ok (isWord_keyAttributes enforces) claimed
  rw [WriteOperation.key?, item_eq, keyOf?_recordKey]

include submits

/-- Only the operation on the item writes outside the records. -/
theorem eq_main_of_live {operation : WriteOperation} (isOperation : operation ∈ operations) {key : Item}
    (live : entity.Live key) (isItem : operation.key? entity.table = some key) : operation = main := by
  rcases submits.each operation isOperation with isMain | ⟨attr, isUnique, text, -, claimed⟩ |
    ⟨attr, isUnique, text, -, rfl⟩
  · exact isMain
  · rw [key?_of_claim enforces claimed] at isItem
    exact absurd (Option.some.inj isItem).symm (live_ne_recordKey enforces live isUnique)
  · exact absurd (Option.some.inj isItem).symm (live_ne_recordKey enforces live isUnique)

/-- Only a claim or a release of a value writes its record. -/
theorem claims_or_releases_of_key? {operation : WriteOperation} (isOperation : operation ∈ operations)
    {attr text : String} (isUnique : attr ∈ entity.uniqueNames)
    (isRecord : operation.key? entity.table = some (entity.recordKey attr text)) :
    (transfer.Claims attr (.string text) ∧
        entity.claim (entity.recordKey attr text) = .ok operation) ∨
      transfer.Releases attr (.string text) ∧
        operation = entity.release (entity.recordKey attr text) := by
  rcases submits.each operation isOperation with rfl | ⟨other, isOther, otherText, claims, claimed⟩ |
    ⟨other, isOther, otherText, releases, rfl⟩
  · rw [submits.item] at isRecord
    exact absurd (Option.some.inj isRecord) (live_ne_recordKey enforces submits.live isUnique)
  · rw [key?_of_claim enforces claimed] at isRecord
    obtain ⟨rfl, rfl⟩ := recordKey_inj enforces isOther isUnique (Option.some.inj isRecord)
    exact .inl ⟨claims, claimed⟩
  · obtain ⟨rfl, rfl⟩ := recordKey_inj enforces isOther isUnique (Option.some.inj isRecord)
    exact .inr ⟨releases, rfl⟩

theorem sent_of_submits (before after : Rows) : transfer.Sent entity ⟨before, operations, after⟩ := by
  constructor
  · intro key live
    constructor
    · rintro ⟨operation, isOperation, isItem⟩
      obtain rfl := eq_main_of_live enforces submits isOperation live isItem
      rw [submits.item] at isItem
      exact (Option.some.inj isItem).symm
    · rintro rfl
      exact ⟨main, submits.isMain, submits.item⟩
  · intro attr isUnique text
    constructor
    · rintro ⟨request, isOperation, key_eq⟩
      have isRecord : (WriteOperation.delete request).key? entity.table =
          some (entity.recordKey attr text) := congrArg some key_eq
      rcases claims_or_releases_of_key? enforces submits isOperation isUnique isRecord with
        ⟨-, claimed⟩ | ⟨releases, -⟩
      · obtain ⟨_, isPut, -⟩ := claim_eq_ok (isWord_keyAttributes enforces) claimed
        cases isPut
      · exact releases
    · intro releases
      exact ⟨_, submits.releases attr isUnique text releases, rfl⟩
  · intro attr isUnique text
    constructor
    · rintro ⟨request, isOperation, key_eq⟩
      rcases claims_or_releases_of_key? enforces submits isOperation isUnique key_eq with
        ⟨claims, -⟩ | ⟨-, released⟩
      · exact claims
      · cases released
    · intro claims
      obtain ⟨operation, isOperation, claimed⟩ := submits.claims attr isUnique text claims
      obtain ⟨request, rfl, item_eq, -⟩ := claim_eq_ok (isWord_keyAttributes enforces) claimed
      exact ⟨request, isOperation, by rw [item_eq, keyOf?_recordKey]⟩

section Transacted

variable {service : Service} {before after : Rows}
  (transacted : service.transact entity.table before operations = some after)
include transacted

omit enforces in
/-- The operation on the item is carried out with the others. -/
theorem exists_plan : ∃ row, service.plan entity.table before main = some (transfer.key, row) ∧
    after transfer.key = row := by
  obtain ⟨⟨key, row⟩, isPlan, after_eq⟩ :=
    (Service.transact_each transacted).1 main submits.isMain
  have key_eq := Service.key?_of_plan isPlan
  rw [submits.item] at key_eq
  obtain rfl := Option.some.inj key_eq
  exact ⟨row, isPlan, after_eq⟩

/-- A claim finds no record and leaves one. -/
theorem record_of_claims (placed : before.Placed entity.table) {attr text : String}
    (isUnique : attr ∈ entity.uniqueNames) (claims : transfer.Claims attr (.string text)) :
    before (entity.recordKey attr text) = none ∧ (after (entity.recordKey attr text)).isSome := by
  obtain ⟨operation, isOperation, claimed⟩ := submits.claims attr isUnique text claims
  obtain ⟨plan, isPlan, after_eq⟩ := (Service.transact_each transacted).1 operation isOperation
  have key_eq := Service.key?_of_plan isPlan
  rw [key?_of_claim enforces claimed] at key_eq
  obtain ⟨request, rfl, -, needsVacancy⟩ := claim_eq_ok (isWord_keyAttributes enforces) claimed
  obtain ⟨-, row_eq, meets⟩ := Service.plan_put isPlan
  rw [← Option.some.inj key_eq] at meets after_eq
  exact ⟨placed.eq_none (needsVacancy service _ meets), by rw [after_eq, row_eq]; rfl⟩

omit enforces in
theorem no_record_of_releases {attr text : String} (isUnique : attr ∈ entity.uniqueNames)
    (releases : transfer.Releases attr (.string text)) :
    after (entity.recordKey attr text) = none := by
  obtain ⟨plan, isPlan, after_eq⟩ := (Service.transact_each transacted).1 _
    (submits.releases attr isUnique text releases)
  obtain rfl := Service.plan_delete isPlan
  exact after_eq

/-- The record of a value that is neither claimed nor released stays as it is. -/
theorem record_unmoved {attr text : String} (isUnique : attr ∈ entity.uniqueNames)
    (notClaimed : ¬ transfer.Claims attr (.string text))
    (notReleased : ¬ transfer.Releases attr (.string text)) :
    after (entity.recordKey attr text) = before (entity.recordKey attr text) := by
  apply (Service.transact_each transacted).2
  intro operation isOperation isRecord
  rcases claims_or_releases_of_key? enforces submits isOperation isUnique isRecord with
    ⟨claims, -⟩ | ⟨releases, -⟩
  · exact notClaimed claims
  · exact notReleased releases

/-- A write that is carried out leads where its transfer says. -/
theorem leads_of_submits (placed : before.Placed entity.table)
    (fits : ∀ row, service.plan entity.table before main = some (transfer.key, row) →
      transfer.Fits entity before row) :
    transfer.Leads entity before after := by
  obtain ⟨row, isPlan, after_eq⟩ := exists_plan submits transacted
  have fits := fits row isPlan
  have held_eq : ∀ attr, after.held transfer.key attr = row.bind (·.present? attr) := by
    intro attr
    rw [Rows.held, after_eq]
  constructor
  · exact submits.live
  · exact submits.textual
  · intro attr isUnique old new move_eq
    rw [held_eq]
    exact (fits attr isUnique).1 old new move_eq
  · intro attr isUnique move_eq
    rw [held_eq]
    exact (fits attr isUnique).2 move_eq
  · intro key live differs
    apply (Service.transact_each transacted).2
    intro operation isOperation isItem
    obtain rfl := eq_main_of_live enforces submits isOperation live isItem
    rw [submits.item] at isItem
    exact differs (Option.some.inj isItem).symm
  · intro attr isUnique text claims
    exact (record_of_claims enforces submits transacted placed isUnique claims).1
  · intro attr isUnique text
    by_cases claims : transfer.Claims attr (.string text)
    · exact iff_of_true (record_of_claims enforces submits transacted placed isUnique claims).2
        (.inl claims)
    · by_cases releases : transfer.Releases attr (.string text)
      · simp [no_record_of_releases submits transacted isUnique releases, claims, releases]
      · simp [record_unmoved enforces submits transacted isUnique claims releases, claims, releases]

end Transacted

end Submission

end Entity

end SingleTable
