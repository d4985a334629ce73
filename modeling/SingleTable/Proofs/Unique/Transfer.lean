import SingleTable.Proofs.Unique.Records

/-!
# Moving unique values

A write of an item moves some of its unique attributes from the value that its client believes
them to hold to the value they are to hold.  The record of a new value is claimed, that of an old
one released, and a value that stays is neither.

If the client believes what is true, the records mirror the items after the write as before
(`mirrored_of_leads`).  If it does not, the write can still keep every value unique, and
`guarded_iff_timely` says exactly when.
-/

namespace SingleTable

def Rows.held (rows : Rows) (key : Item) (attr : String) : Option Value :=
  (rows key).bind (·.present? attr)

namespace Entity

variable {entity : Entity}

/-- A key of an item of the entity, not of a record. -/
def Live (entity : Entity) (key : Item) : Prop := ¬ entity.IsRecord key

/-! ## What the rows look like -/

def Textual (entity : Entity) (rows : Rows) : Prop :=
  ∀ attr ∈ entity.uniqueNames, ∀ key value, entity.Live key → rows.held key attr = some value →
    ∃ text, value = .string text

/-- No two items hold the same value of a unique attribute. -/
def Distinct (entity : Entity) (rows : Rows) : Prop :=
  ∀ attr ∈ entity.uniqueNames, ∀ value key other, entity.Live key → entity.Live other →
    rows.held key attr = some value → rows.held other attr = some value → key = other

/-- Every unique value that an item holds has its record. -/
def Recorded (entity : Entity) (rows : Rows) : Prop :=
  ∀ attr ∈ entity.uniqueNames, ∀ value key, entity.Live key → rows.held key attr = some value →
    ∃ record, entity.uniqueRecord attr value = .ok (some record) ∧ (rows record).isSome

/-- Every unique value is held once and has its record. -/
def Guarded (entity : Entity) (rows : Rows) : Prop := entity.Distinct rows ∧ entity.Recorded rows

/-- The records are those of the values that items hold, and each value is held once. -/
structure Mirrored (entity : Entity) (rows : Rows) : Prop where
  records : ∀ record, entity.IsRecord record → ((rows record).isSome ↔
    ∃ attr ∈ entity.uniqueNames, ∃ value key, entity.Live key ∧ rows.held key attr = some value ∧
      entity.uniqueRecord attr value = .ok (some record))
  distinct : entity.Distinct rows

end Entity

/-! ## Transfers -/

/-- What a write does to the unique values of an item. -/
structure Transfer where
  /-- The key of the item. -/
  key : Item
  /-- What an attribute is believed to hold, and what it is to hold; attributes without a move
  stay as they are. -/
  move : String → Option (Option Value × Option Value)

namespace Transfer

variable (transfer : Transfer)

/-- A value that was not there is claimed. -/
def Claims (attr : String) (value : Value) : Prop :=
  ∃ old, transfer.move attr = some (old, some value) ∧ old ≠ some value

/-- A value that was there and goes is released. -/
def Releases (attr : String) (value : Value) : Prop :=
  ∃ new, transfer.move attr = some (some value, new) ∧ new ≠ some value

/-- What the client believes is true. -/
def Expects (entity : Entity) (rows : Rows) : Prop :=
  ∀ attr ∈ entity.uniqueNames, ∀ old new, transfer.move attr = some (old, new) → rows.held transfer.key attr = old

/-- The transfer leads from some rows to others. -/
structure Leads (entity : Entity) (before after : Rows) : Prop where
  live : entity.Live transfer.key
  textual : ∀ attr ∈ entity.uniqueNames, ∀ old value, transfer.move attr = some (old, some value) →
    ∃ text, value = .string text
  moved : ∀ attr ∈ entity.uniqueNames, ∀ old new, transfer.move attr = some (old, new) →
    after.held transfer.key attr = new
  kept : ∀ attr ∈ entity.uniqueNames, transfer.move attr = none →
    after.held transfer.key attr = before.held transfer.key attr
  others : ∀ key, entity.Live key → key ≠ transfer.key → after key = before key
  vacant : ∀ attr ∈ entity.uniqueNames, ∀ text, transfer.Claims attr (.string text) →
    before (entity.recordKey attr text) = none
  records : ∀ attr ∈ entity.uniqueNames, ∀ text,
    ((after (entity.recordKey attr text)).isSome ↔ transfer.Claims attr (.string text) ∨
      (before (entity.recordKey attr text)).isSome ∧ ¬ transfer.Releases attr (.string text))

variable {transfer}

theorem Releases.not_claims {attr : String} {value : Value} (releases : transfer.Releases attr value) :
    ¬ transfer.Claims attr value := by
  rintro ⟨old, move_eq, differs⟩
  obtain ⟨new, move_eq', -⟩ := releases
  rw [move_eq] at move_eq'
  obtain ⟨rfl, -⟩ := Prod.mk.inj (Option.some.inj move_eq')
  exact differs rfl

end Transfer

namespace Entity

variable {entity : Entity} {before after : Rows} {transfer : Transfer}

theorem held_of_others (leads : transfer.Leads entity before after) {key : Item}
    (live : entity.Live key) (differs : key ≠ transfer.key) (attr : String) :
    after.held key attr = before.held key attr := by
  rw [Rows.held, Rows.held, leads.others key live differs]

theorem moved_or_kept (leads : transfer.Leads entity before after) {attr : String}
    (isUnique : attr ∈ entity.uniqueNames) {value : Value}
    (holds : after.held transfer.key attr = some value) :
    (∃ old, transfer.move attr = some (old, some value)) ∨
      transfer.move attr = none ∧ before.held transfer.key attr = some value := by
  cases move_eq : transfer.move attr with
  | none => exact .inr ⟨rfl, by rw [← leads.kept attr isUnique move_eq, holds]⟩
  | some move =>
    obtain ⟨old, new⟩ := move
    rw [leads.moved attr isUnique old new move_eq] at holds
    exact .inl ⟨old, by rw [holds]⟩

theorem textual_of_leads (textual : entity.Textual before)
    (leads : transfer.Leads entity before after) : entity.Textual after := by
  intro attr isUnique key value live holds
  by_cases isItem : key = transfer.key
  · subst isItem
    rcases moved_or_kept leads isUnique holds with ⟨old, move_eq⟩ | ⟨-, held⟩
    · exact leads.textual attr isUnique old value move_eq
    · exact textual attr isUnique _ value live held
  · rw [held_of_others leads live isItem] at holds
    exact textual attr isUnique key value live holds

section Records

variable (enforces : entity.Enforces)
include enforces

/-- The record of a text is that of no other value, so who holds a value with it holds the text. -/
theorem holds_record_iff (textual : entity.Textual before) {attr : String}
    (isUnique : attr ∈ entity.uniqueNames) (text : String) :
    (∃ other ∈ entity.uniqueNames, ∃ value key, entity.Live key ∧
        before.held key other = some value ∧
        entity.uniqueRecord other value = .ok (some (entity.recordKey attr text))) ↔
      ∃ key, entity.Live key ∧ before.held key attr = some (.string text) := by
  constructor
  · rintro ⟨other, isOther, value, key, live, holds, isRecord⟩
    obtain ⟨otherText, rfl⟩ := textual other isOther key value live holds
    rw [uniqueRecord_string enforces isOther _] at isRecord
    obtain ⟨rfl, rfl⟩ := recordKey_inj enforces isOther isUnique
      (Option.some.inj (Except.ok.inj isRecord))
    exact ⟨key, live, holds⟩
  · rintro ⟨key, live, holds⟩
    exact ⟨attr, isUnique, _, key, live, holds, uniqueRecord_string enforces isUnique _⟩

/-- The records mirror the items, said of texts. -/
theorem mirrored_iff (textual : entity.Textual before) :
    entity.Mirrored before ↔ entity.Distinct before ∧ ∀ attr ∈ entity.uniqueNames, ∀ text,
      ((before (entity.recordKey attr text)).isSome ↔
        ∃ key, entity.Live key ∧ before.held key attr = some (.string text)) := by
  constructor
  · rintro ⟨records, distinct⟩
    refine ⟨distinct, ?_⟩
    intro attr isUnique text
    rw [records _ ((isRecord_iff enforces).2 ⟨attr, isUnique, text, rfl⟩)]
    exact holds_record_iff enforces textual isUnique text
  · rintro ⟨distinct, records⟩
    refine ⟨?_, distinct⟩
    intro record isRecord
    obtain ⟨attr, isUnique, text, rfl⟩ := (isRecord_iff enforces).1 isRecord
    rw [records attr isUnique text]
    exact (holds_record_iff enforces textual isUnique text).symm

theorem isSome_of_recorded {rows : Rows} (recorded : entity.Recorded rows) {attr text : String}
    (isUnique : attr ∈ entity.uniqueNames) {key : Item} (live : entity.Live key)
    (holds : rows.held key attr = some (.string text)) :
    (rows (entity.recordKey attr text)).isSome := by
  obtain ⟨record, isRecord, isStored⟩ := recorded attr isUnique _ key live holds
  rw [uniqueRecord_string enforces isUnique _] at isRecord
  obtain rfl := Option.some.inj (Except.ok.inj isRecord)
  exact isStored

end Records

/-- Values stay with one item if no other item held what the item of the transfer comes to hold. -/
theorem distinct_of_leads (leads : transfer.Leads entity before after)
    (distinct : entity.Distinct before)
    (apart : ∀ attr ∈ entity.uniqueNames, ∀ value key, entity.Live key → key ≠ transfer.key →
      after.held transfer.key attr = some value → before.held key attr ≠ some value) :
    entity.Distinct after := by
  intro attr isUnique value key other live otherLive holds otherHolds
  by_cases isItem : key = transfer.key
  · by_cases isOther : other = transfer.key
    · rw [isItem, isOther]
    · subst isItem
      rw [held_of_others leads otherLive isOther] at otherHolds
      exact absurd otherHolds (apart attr isUnique value other otherLive isOther holds)
  · rw [held_of_others leads live isItem] at holds
    by_cases isOther : other = transfer.key
    · subst isOther
      exact absurd holds (apart attr isUnique value key live isItem otherHolds)
    · rw [held_of_others leads otherLive isOther] at otherHolds
      exact distinct attr isUnique value key other live otherLive holds otherHolds

/-! ## Clients that believe what is true -/

section Expecting

variable (enforces : entity.Enforces) (textual : entity.Textual before)
  (leads : transfer.Leads entity before after) (expects : transfer.Expects entity before)
  (distinct : entity.Distinct before)
  (records : ∀ attr ∈ entity.uniqueNames, ∀ text,
    ((before (entity.recordKey attr text)).isSome ↔
      ∃ key, entity.Live key ∧ before.held key attr = some (.string text)))
include leads expects distinct records

include textual in
/-- What the item comes to hold was held by no other item: it is claimed, or the item held it. -/
theorem not_held_elsewhere {attr : String} (isUnique : attr ∈ entity.uniqueNames) {value : Value}
    {key : Item} (live : entity.Live key) (differs : key ≠ transfer.key)
    (holds : after.held transfer.key attr = some value) : before.held key attr ≠ some value := by
  intro otherHolds
  obtain ⟨text, rfl⟩ := textual attr isUnique key value live otherHolds
  have isStored := (records attr isUnique text).2 ⟨key, live, otherHolds⟩
  have heldBefore : before.held transfer.key attr = some (.string text) := by
    rcases moved_or_kept leads isUnique holds with ⟨old, move_eq⟩ | ⟨-, held⟩
    · by_cases same : old = some (.string text)
      · rw [expects attr isUnique old _ move_eq, same]
      · rw [leads.vacant attr isUnique text ⟨old, move_eq, same⟩] at isStored
        cases isStored
    · exact held
  exact differs (distinct attr isUnique _ _ _ live leads.live otherHolds heldBefore)

omit distinct in
/-- A record that is there after the transfer is that of a value that is held. -/
theorem held_of_record {attr text : String} (isUnique : attr ∈ entity.uniqueNames)
    (isStored : (after (entity.recordKey attr text)).isSome) :
    ∃ key, entity.Live key ∧ after.held key attr = some (.string text) := by
  rcases (leads.records attr isUnique text).1 isStored with
    ⟨old, move_eq, -⟩ | ⟨wasStored, notReleased⟩
  · exact ⟨transfer.key, leads.live, leads.moved attr isUnique old _ move_eq⟩
  · obtain ⟨key, live, holds⟩ := (records attr isUnique text).1 wasStored
    refine ⟨key, live, ?_⟩
    -- if the item held the value, it still does: else the client, who knew, would have released it
    by_cases isItem : key = transfer.key
    · subst isItem
      cases move_eq : transfer.move attr with
      | none => rw [leads.kept attr isUnique move_eq, holds]
      | some move =>
        obtain ⟨old, new⟩ := move
        rw [expects attr isUnique old new move_eq] at holds
        subst holds
        rw [leads.moved attr isUnique _ new move_eq]
        by_contra differs
        exact notReleased ⟨new, move_eq, differs⟩
    · rw [held_of_others leads live isItem, holds]

theorem record_of_held {attr text : String} (isUnique : attr ∈ entity.uniqueNames) {key : Item}
    (live : entity.Live key) (holds : after.held key attr = some (.string text)) :
    (after (entity.recordKey attr text)).isSome := by
  rw [leads.records attr isUnique text, records attr isUnique text]
  by_cases isItem : key = transfer.key
  · subst isItem
    rcases moved_or_kept leads isUnique holds with ⟨old, move_eq⟩ | ⟨move_eq, held⟩
    · by_cases same : old = some (.string text)
      · refine .inr ⟨⟨transfer.key, live, by rw [expects attr isUnique old _ move_eq, same]⟩, ?_⟩
        rintro ⟨new, move_eq', differs⟩
        rw [move_eq] at move_eq'
        exact differs (Prod.mk.inj (Option.some.inj move_eq')).2.symm
      · exact .inl ⟨old, move_eq, same⟩
    · refine .inr ⟨⟨transfer.key, live, held⟩, ?_⟩
      rintro ⟨new, move_eq', -⟩
      rw [move_eq] at move_eq'
      cases move_eq'
  · refine .inr ⟨⟨key, live, by rw [← held_of_others leads live isItem, holds]⟩, ?_⟩
    rintro ⟨new, move_eq, -⟩
    have heldBefore := expects attr isUnique _ new move_eq
    rw [held_of_others leads live isItem] at holds
    exact isItem (distinct attr isUnique _ _ _ live leads.live holds heldBefore)

end Expecting

/-- A client that believes what is true keeps records and items in step. -/
theorem mirrored_of_leads (enforces : entity.Enforces) (textual : entity.Textual before)
    (leads : transfer.Leads entity before after) (expects : transfer.Expects entity before)
    (mirrored : entity.Mirrored before) : entity.Mirrored after := by
  obtain ⟨distinct, records⟩ := (mirrored_iff enforces textual).1 mirrored
  refine (mirrored_iff enforces (textual_of_leads textual leads)).2 ⟨?_, ?_⟩
  · refine distinct_of_leads leads distinct ?_
    intro attr isUnique value key live differs holds
    exact not_held_elsewhere textual leads expects distinct records isUnique live differs holds
  · intro attr isUnique text
    constructor
    · exact held_of_record leads expects records isUnique
    · rintro ⟨key, live, holds⟩
      exact record_of_held leads expects distinct records isUnique live holds

/-! ## Clients that may be mistaken -/

/-- A write that was applied: its operations, and the rows before and after. -/
structure Applied where
  before : Rows
  operations : List WriteOperation
  after : Rows

namespace Applied

variable (applied : Applied)

def Writes (table : Table) (key : Item) : Prop :=
  ∃ operation ∈ applied.operations, operation.key? table = some key

def Deletes (key : Item) : Prop := ∃ request, .delete request ∈ applied.operations ∧ request.key = key

def Puts (table : Table) (key : Item) : Prop :=
  ∃ request, .put request ∈ applied.operations ∧ table.keyOf? request.item = some key

end Applied

/-- A write comes in time if the values it releases and those it takes for its own without a
claim are not those of other items by now. -/
structure Timely (entity : Entity) (applied : Applied) : Prop where
  released : ∀ attr ∈ entity.uniqueNames, ∀ text, applied.Deletes (entity.recordKey attr text) →
    ∀ key, entity.Live key → ¬ applied.Writes entity.table key →
      applied.before.held key attr ≠ some (.string text)
  unclaimed : ∀ attr ∈ entity.uniqueNames, ∀ text key, entity.Live key →
    applied.after.held key attr = some (.string text) →
    applied.before.held key attr ≠ some (.string text) →
    ¬ applied.Puts entity.table (entity.recordKey attr text) →
      (applied.before (entity.recordKey attr text)).isSome ∧
        ∀ other, entity.Live other → other ≠ key → applied.before.held other attr ≠ some (.string text)

end Entity

/-- The operations carry the transfer out. -/
structure Transfer.Sent (transfer : Transfer) (entity : Entity) (applied : Entity.Applied) : Prop where
  writes : ∀ key, entity.Live key → (applied.Writes entity.table key ↔ key = transfer.key)
  deletes : ∀ attr ∈ entity.uniqueNames, ∀ text,
    (applied.Deletes (entity.recordKey attr text) ↔ transfer.Releases attr (.string text))
  puts : ∀ attr ∈ entity.uniqueNames, ∀ text,
    (applied.Puts entity.table (entity.recordKey attr text) ↔ transfer.Claims attr (.string text))

namespace Entity

section Mistaken

variable {entity : Entity} {applied : Applied} {transfer : Transfer} (enforces : entity.Enforces)
  (textual : entity.Textual applied.before)
  (leads : transfer.Leads entity applied.before applied.after)
  (sent : transfer.Sent entity applied)
include leads sent

include enforces in
theorem timely_of_guarded (guarded : entity.Guarded applied.after) : entity.Timely applied := by
  obtain ⟨distinct, recorded⟩ := guarded
  constructor
  · intro attr isUnique text isDeleted key live notWritten holds
    have releases := (sent.deletes attr isUnique text).1 isDeleted
    have differs : key ≠ transfer.key := fun isItem => notWritten ((sent.writes key live).2 isItem)
    rw [← held_of_others leads live differs] at holds
    rcases (leads.records attr isUnique text).1
      (isSome_of_recorded enforces recorded isUnique live holds) with claims | ⟨-, kept⟩
    · exact releases.not_claims claims
    · exact kept releases
  · intro attr isUnique text key live holds notHeld notPut
    have isItem : key = transfer.key := by
      by_contra differs
      rw [held_of_others leads live differs] at holds
      exact notHeld holds
    subst isItem
    rw [sent.puts attr isUnique text] at notPut
    constructor
    · rcases (leads.records attr isUnique text).1
        (isSome_of_recorded enforces recorded isUnique live holds) with claims | ⟨isStored, -⟩
      · exact absurd claims notPut
      · exact isStored
    · intro other otherLive differs otherHolds
      rw [← held_of_others leads otherLive differs] at otherHolds
      exact differs (distinct attr isUnique _ _ _ otherLive live otherHolds holds)

include enforces textual in
theorem guarded_of_timely (guarded : entity.Guarded applied.before) (timely : entity.Timely applied) :
    entity.Guarded applied.after := by
  obtain ⟨distinct, recorded⟩ := guarded
  have stored : ∀ attr ∈ entity.uniqueNames, ∀ text key, entity.Live key →
      applied.before.held key attr = some (.string text) →
      (applied.before (entity.recordKey attr text)).isSome :=
    fun attr isUnique text key live => isSome_of_recorded enforces recorded isUnique live
  constructor
  · refine distinct_of_leads leads distinct ?_
    intro attr isUnique value key live differs holds otherHolds
    obtain ⟨text, rfl⟩ := textual attr isUnique key value live otherHolds
    by_cases held : applied.before.held transfer.key attr = some (.string text)
    · exact differs (distinct attr isUnique _ _ _ live leads.live otherHolds held)
    · by_cases isPut : applied.Puts entity.table (entity.recordKey attr text)
      · -- a record that is claimed was not there, but that of another item's value was
        have isStored := stored attr isUnique text key live otherHolds
        rw [leads.vacant attr isUnique text ((sent.puts attr isUnique text).1 isPut)] at isStored
        cases isStored
      · exact (timely.unclaimed attr isUnique text _ leads.live holds held isPut).2 key live differs
          otherHolds
  · intro attr isUnique value key live holds
    obtain ⟨text, rfl⟩ := textual_of_leads textual leads attr isUnique key value live holds
    refine ⟨_, uniqueRecord_string enforces isUnique _, ?_⟩
    rw [leads.records attr isUnique text]
    by_cases isItem : key = transfer.key
    · subst isItem
      by_cases claims : transfer.Claims attr (.string text)
      · exact .inl claims
      · refine .inr ⟨?_, ?_⟩
        · by_cases held : applied.before.held transfer.key attr = some (.string text)
          · exact stored attr isUnique text _ live held
          · rw [← sent.puts attr isUnique text] at claims
            exact (timely.unclaimed attr isUnique text _ live holds held claims).1
        · -- a value that was released is not the one that the item holds now
          rintro ⟨new, move_eq, differs⟩
          rw [leads.moved attr isUnique _ new move_eq] at holds
          exact differs holds
    · have holdsBefore := holds
      rw [held_of_others leads live isItem] at holdsBefore
      refine .inr ⟨stored attr isUnique text key live holdsBefore, ?_⟩
      intro releases
      have notWritten : ¬ applied.Writes entity.table key := by
        rw [sent.writes key live]
        exact isItem
      exact timely.released attr isUnique text ((sent.deletes attr isUnique text).2 releases) key live
        notWritten holdsBefore

include enforces textual in
/-- From rows where every value is unique, exactly a write that comes in time leads to such. -/
theorem guarded_iff_timely (guarded : entity.Guarded applied.before) :
    entity.Guarded applied.after ↔ entity.Timely applied :=
  ⟨timely_of_guarded enforces leads sent, guarded_of_timely enforces textual leads sent guarded⟩

end Mistaken

end Entity

end SingleTable
