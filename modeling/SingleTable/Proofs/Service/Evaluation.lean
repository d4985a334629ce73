import SingleTable.Proofs.Condition.Meaning
import SingleTable.Proofs.Update.Reading
import SingleTable.Store.Call

/-!
# What the service does with expressions

The service evaluates a condition on an item and executes an update on it.  Only the part that
the library relies on is fixed here: the connectives, the presence of an attribute, assigning a
value to an attribute and removing one.  Every other predicate, the arithmetic and the set
changes, and changes inside a document are left to a `Service`, about which nothing is assumed.
-/

namespace SingleTable

open Grammar

/-! ## Changes -/

namespace Grammar.Change

def root (change : ItemChange) : String := (change.path.head?.map (·.name)).getD ""

def isTop (change : ItemChange) : Bool :=
  match change.path with
  | [segment] => segment.indexes = ""
  | _ => false

end Grammar.Change

def Value.isDocument : Value → Bool
  | list _ | map _ => true
  | _ => false

def Item.assign (item : Item) (name : String) : Option Value → Item
  | some value => item.insert name value
  | none => item.erase name

theorem Item.get?_assign (item : Item) (name : String) (value : Option Value) (other : String) :
    (item.assign name value).get? other = if name = other then value else item.get? other := by
  cases value with
  | some value => exact NameMap.get?_insert item name value other
  | none => exact NameMap.get?_erase item name other

/-! ## The service -/

/-- What the service is free to do. -/
structure Service where
  /-- Whether an item meets a predicate. -/
  judge : Predicate (List PathSegment) Value → Item → Bool
  /-- The value of an attribute that is changed as a whole; there may be none, and the service
  may refuse the change. -/
  compute : ItemChange → Item → Option (Option Value)
  /-- The value of a document after changes inside it, unless the service refuses them. -/
  inside : List ItemChange → Item → Value → Option Value
  /-- The error of a call that the service refuses for reasons of its own. -/
  refuses : Call → Option Error
  /-- The error of a call that cannot be carried out. -/
  failure : Call → Error
  /-- What is told about the operations of a transaction that cannot be carried out. -/
  reasons : List WriteOperation → List CancellationReason

/-- A service that finds every other predicate true and makes no other change. -/
instance : Inhabited Service where
  default := {
    judge := fun _ _ => true
    compute := fun _ _ => none
    inside := fun _ _ _ => none
    refuses := fun _ => none
    failure := fun _ => .requestConstruction
    reasons := fun _ => [] }

namespace Service

variable (service : Service)

def holds (item : Item) : Formula (Predicate (List PathSegment) Value) → Bool
  | .test (.call .present (.path [⟨name, ""⟩]) none) => item.contains name
  | .test (.call .absent (.path [⟨name, ""⟩]) none) => !item.contains name
  | .test predicate => service.judge predicate item
  | .and left right => holds item left && holds item right
  | .or left right => holds item left || holds item right
  | .not formula => !holds item formula

/-- Whether an item meets the condition of a request; a text that cannot be read is met by no
item. -/
def meets (item : Item) (condition : Option String) (bindings : Bindings) : Bool :=
  match condition with
  | none => true
  | some text => (readCondition text bindings).any (service.holds item)

/-- The value of an attribute that one change is about as a whole. -/
def changeTop (old : Item) : ItemChange → Option (Option Value)
  | .set _ (.term (.value value)) => some (some value)
  | .remove _ => some none
  | change => service.compute change old

/-- The value of an attribute after all changes that are about it.  Changes inside an attribute
need a document, and an attribute changed as a whole cannot be changed otherwise as well. -/
def attributeAfter (changes : List ItemChange) (old : Item) (name : String) :
    Option (Option Value) :=
  match changes.filter (·.root = name) with
  | [] => some (old.get? name)
  | first :: others =>
    if first.isTop && others.isEmpty then service.changeTop old first
    else if (first :: others).any (·.isTop) then none
    else
      match old.get? name with
      | some document =>
        if document.isDocument then (service.inside (first :: others) old document).map some
        else none
      | none => none

/-- The item after some changes, all of which start from the item as it was. -/
def execute (changes : List ItemChange) (old : Item) : Option Item :=
  changes.foldlM
    (fun item change =>
      (service.attributeAfter changes old change.root).map (item.assign change.root))
    old

def update (request : UpdateRequest) (old : Item) : Option Item :=
  if service.meets old request.condition request.bindings then do
    service.execute (← readUpdate request.update request.bindings) old
  else none

variable {service}

/-- Assigning attributes one by one settles each of them for good. -/
theorem get?_of_foldlM_assign {result : String → Option (Option Value)} {name : String}
    {changes : List ItemChange} {item new : Item}
    (folded : changes.foldlM
      (fun item change => (result change.root).map (item.assign change.root)) item = some new)
    (settled : result name = some (item.get? name) ∨ ∃ change ∈ changes, change.root = name) :
    result name = some (new.get? name) := by
  induction changes generalizing item with
  | nil =>
    obtain rfl : item = new := by simpa using folded
    simpa using settled
  | cons change changes inductionHypothesis =>
    simp only [List.foldlM_cons, Option.bind_eq_bind, Option.bind_eq_some_iff,
      Option.map_eq_some_iff] at folded
    obtain ⟨_, ⟨value, result_eq, rfl⟩, folded⟩ := folded
    apply inductionHypothesis folded
    rw [Item.get?_assign]
    by_cases same : change.root = name
    · subst same
      exact .inl (by simpa using result_eq)
    · rw [if_neg same]
      rcases settled with settled | ⟨other, isMember, root_eq⟩
      · exact .inl settled
      · rcases List.mem_cons.1 isMember with rfl | isMember
        · exact absurd root_eq same
        · exact .inr ⟨other, isMember, root_eq⟩

/-- Every attribute of the changed item is what its changes make of it. -/
theorem attributeAfter_of_execute {changes : List ItemChange} {old new : Item}
    (executed : service.execute changes old = some new) (name : String) :
    service.attributeAfter changes old name = some (new.get? name) := by
  apply get?_of_foldlM_assign executed
  by_cases touched : ∃ change ∈ changes, change.root = name
  · exact .inr touched
  · have noChanges : changes.filter (·.root = name) = [] := by
      rw [List.filter_eq_nil_iff]
      intro change isMember root_eq
      exact touched ⟨change, isMember, by simpa using root_eq⟩
    exact .inl (by simp [attributeAfter, noChanges])

theorem get?_of_execute_of_untouched {changes : List ItemChange} {old new : Item} {name : String}
    (executed : service.execute changes old = some new)
    (untouched : ∀ change ∈ changes, change.root ≠ name) : new.get? name = old.get? name := by
  have after := attributeAfter_of_execute executed name
  have noChanges : changes.filter (·.root = name) = [] := by
    rw [List.filter_eq_nil_iff]
    intro change isMember root_eq
    exact untouched change isMember (by simpa using root_eq)
  simp only [attributeAfter, noChanges, Option.some.injEq] at after
  exact after.symm

theorem get?_of_execute_of_inside {changes : List ItemChange} {old new : Item} {name : String}
    (executed : service.execute changes old = some new)
    (inside : ∀ change ∈ changes, change.root = name → change.isTop = false)
    (noDocument : ∀ value, old.get? name = some value → value.isDocument = false) :
    new.get? name = old.get? name := by
  have after := attributeAfter_of_execute executed name
  unfold attributeAfter at after
  split at after
  · exact (Option.some.inj after).symm
  · next first others changes_eq =>
    have notTop : ∀ change ∈ first :: others, change.isTop = false := by
      intro change isMember
      rw [← changes_eq, List.mem_filter] at isMember
      exact inside change isMember.1 (by simpa using isMember.2)
    have noneTop : (first :: others).any (·.isTop) = false := by
      rw [List.any_eq_false]
      intro change isMember
      simp [notTop change isMember]
    rw [notTop first (by simp), noneTop] at after
    cases value_eq : old.get? name with
    | none => simp [value_eq] at after
    | some value => simp [value_eq, noDocument value value_eq] at after

/-- An attribute that is changed as a whole has the value that this change gives it. -/
theorem changeTop_of_execute {changes : List ItemChange} {old new : Item} {change : ItemChange}
    (executed : service.execute changes old = some new) (isMember : change ∈ changes)
    (isTop : change.isTop = true) :
    service.changeTop old change = some (new.get? change.root) := by
  have after := attributeAfter_of_execute executed change.root
  unfold attributeAfter at after
  have inFilter : change ∈ changes.filter (·.root = change.root) := by
    simp [List.mem_filter, isMember]
  split at after
  · next changes_eq =>
    rw [changes_eq] at inFilter
    cases inFilter
  · next first others changes_eq =>
    rw [changes_eq] at inFilter
    have someTop : (first :: others).any (·.isTop) = true :=
      List.any_eq_true.2 ⟨change, inFilter, isTop⟩
    split at after
    · next alone =>
      simp only [Bool.and_eq_true, List.isEmpty_iff] at alone
      obtain rfl : change = first := by simpa [alone.2] using inFilter
      exact after
    · cases after

end Service

end SingleTable
