import Mathlib.Data.List.TakeWhile
import SingleTable.Proofs.Service.Evaluation

/-!
# What executing actions does to an attribute

An action changes an attribute as a whole only if its path is the name of the attribute.  So an
attribute that is set or removed by name ends up as the action says, and one that no action
names stays as it is, unless it is a document that actions change inside.
-/

namespace SingleTable

open Grammar

/-! ## Paths and attributes -/

namespace Path

theorem splitDots_of_not_mem {cs : List Char} (noDot : '.' ∉ cs) : splitDots cs = [cs] := by
  induction cs with
  | nil => rfl
  | cons c cs inductionHypothesis =>
    have notDot : c ≠ '.' := by
      rintro rfl
      simp at noDot
    rw [splitDots, if_neg notDot, inductionHypothesis (by simp_all)]

/-- The name of the first segment is the attribute at the top. -/
theorem head_segments (path : String) :
    ((segments path).head?.map (·.name)).getD "" = top path := by
  -- the first segment ends at the first dot, its name at the first bracket before that
  have heads : ∀ cs : List Char, ∃ first rest, splitDots cs = first :: rest ∧
      first.takeWhile (· ≠ '[') = cs.takeWhile fun c => c ≠ '.' && c ≠ '[' := by
    intro cs
    induction cs with
    | nil => exact ⟨[], [], rfl, rfl⟩
    | cons c cs inductionHypothesis =>
      obtain ⟨first, rest, split_eq, takeWhile_eq⟩ := inductionHypothesis
      by_cases isDot : c = '.'
      · exact ⟨[], splitDots cs, by simp [splitDots, isDot], by simp [isDot]⟩
      · refine ⟨c :: first, rest, by simp [splitDots, isDot, split_eq], ?_⟩
        by_cases isBracket : c = '['
        · simp [isBracket]
        · simp only [List.takeWhile_cons, isDot, isBracket, ne_eq, not_false_eq_true, decide_true,
            Bool.and_self, if_true, List.cons.injEq, true_and]
          simpa using takeWhile_eq
  obtain ⟨first, rest, split_eq, takeWhile_eq⟩ := heads path.toList
  simp only [segments, split_eq, List.map_cons, List.head?_cons, Option.map_some, Option.getD_some,
    segment, takeWhile_eq, top]

theorem segments_of_isWord {name : String} (isWord : IsWord name) : segments name = [⟨name, ""⟩] := by
  have noDot : '.' ∉ name.toList := fun isMember => absurd (isWord _ isMember) (by decide)
  have noBracket : ∀ c ∈ name.toList, c ≠ '[' := by
    rintro c isMember rfl
    exact absurd (isWord _ isMember) (by decide)
  have takeWhile_eq : name.toList.takeWhile (· ≠ '[') = name.toList := by
    rw [List.takeWhile_eq_self_iff]
    exact fun c isMember => by simpa using noBracket c isMember
  have dropWhile_eq : name.toList.dropWhile (· ≠ '[') = [] := by
    rw [List.dropWhile_eq_nil_iff]
    exact fun c isMember => by simpa using noBracket c isMember
  simp only [segments, splitDots_of_not_mem noDot, List.map_cons, List.map_nil, segment, takeWhile_eq,
    dropWhile_eq, String.ofList_toList, String.ofList_nil]

theorem isPlain_of_isWord {name : String} (isWord : IsWord name) : IsPlain name := by
  intro segment isMember
  rw [segments_of_isWord isWord, List.mem_singleton] at isMember
  subst isMember
  exact ⟨isWord, [], by simp, rfl⟩

theorem top_of_isWord {name : String} (isWord : IsWord name) : top name = name := by
  rw [← head_segments, segments_of_isWord isWord]
  rfl

/-- A path of one segment without indexes is the name of the segment. -/
theorem eq_of_segments {path name : String} (segments_eq : segments path = [⟨name, ""⟩]) :
    path = name := by
  have heads : ∀ {cs part : List Char}, splitDots cs = [part] → cs = part := by
    intro cs part split_eq
    induction cs generalizing part with
    | nil => simpa [splitDots] using split_eq
    | cons c cs inductionHypothesis =>
      by_cases isDot : c = '.'
      · simp [splitDots, isDot, splitDots_ne_nil] at split_eq
      · obtain ⟨first, rest, rest_eq⟩ := List.exists_cons_of_ne_nil (splitDots_ne_nil cs)
        simp only [splitDots, isDot, if_false, rest_eq, List.cons.injEq] at split_eq
        obtain ⟨rfl, rfl⟩ := split_eq
        rw [inductionHypothesis rest_eq]
  obtain ⟨part, split_eq, segment_eq⟩ : ∃ part, splitDots path.toList = [part] ∧
      segment part = ⟨name, ""⟩ := by
    simpa [segments, List.map_eq_singleton_iff] using segments_eq
  have path_eq : path.toList = part := heads split_eq
  have name_eq : String.ofList (part.takeWhile (· ≠ '[')) = name := congrArg PathSegment.name segment_eq
  have noIndexes : String.ofList (part.dropWhile (· ≠ '[')) = "" :=
    congrArg PathSegment.indexes segment_eq
  have part_eq : part = part.takeWhile (· ≠ '[') ++ part.dropWhile (· ≠ '[') :=
    List.takeWhile_append_dropWhile.symm
  have noIndexChars : part.dropWhile (· ≠ '[') = [] := by
    simpa using congrArg String.toList noIndexes
  rw [noIndexChars, List.append_nil] at part_eq
  rw [← String.toList_inj, path_eq, ← name_eq, ← part_eq, String.toList_ofList]

theorem head_element (index : Nat) (path : List PathSegment) :
    (element index path).head?.map (·.name) = path.head?.map (·.name) := by
  rcases path with _ | ⟨first, _ | ⟨second, rest⟩⟩ <;> rfl

theorem indexes_element (index : Nat) (segment : PathSegment) :
    (⟨segment.name, segment.indexes ++ indexText [index.repr]⟩ : PathSegment).indexes ≠ "" := by
  simp [indexText]

end Path

/-! ## The changes of actions -/

theorem UpdateAction.root_of_mem_changes {path : String} {action : UpdateAction}
    {change : ItemChange} (isMember : change ∈ action.changes (Path.segments path)) :
    change.root = Path.top path := by
  rw [← Path.head_segments]
  cases action with
  | removeAt indexes =>
    obtain ⟨index, -, rfl⟩ := List.mem_map.1 isMember
    simp only [Change.root, Change.path, Path.head_element]
  | set _ | increment _ | decrement _ | setIfAbsent _ | listAppend _ | add _ | remove | delete _ =>
    obtain rfl := List.mem_singleton.1 isMember
    rfl

theorem Change.path_eq_of_isTop {change : ItemChange} (isTop : change.isTop = true) :
    ∃ name, change.path = [⟨name, ""⟩] := by
  unfold Change.isTop at isTop
  split at isTop
  · next segment path_eq =>
    obtain ⟨name, indexes⟩ := segment
    obtain rfl : indexes = "" := by simpa using isTop
    exact ⟨name, path_eq⟩
  · cases isTop

/-- Only actions on the name of an attribute change it as a whole. -/
theorem UpdateAction.path_of_isTop {path : String} {action : UpdateAction} {change : ItemChange}
    (isMember : change ∈ action.changes (Path.segments path)) (isTop : change.isTop = true) :
    path = Path.top path := by
  have named : ∃ name, Path.segments path = [⟨name, ""⟩] := by
    cases action with
    | removeAt indexes =>
      obtain ⟨index, -, rfl⟩ := List.mem_map.1 isMember
      obtain ⟨name, element_eq⟩ := Change.path_eq_of_isTop isTop
      simp only [Change.path] at element_eq
      generalize Path.segments path = segments at element_eq
      rcases segments with _ | ⟨first, _ | ⟨second, rest⟩⟩
      · cases element_eq
      · exact absurd (congrArg PathSegment.indexes (List.cons.inj element_eq).1)
          (Path.indexes_element index first)
      · rcases rest with _ | ⟨third, rest⟩ <;> simp [Path.element] at element_eq
    | set _ | increment _ | decrement _ | setIfAbsent _ | listAppend _ | add _ | remove
      | delete _ =>
      obtain rfl := List.mem_singleton.1 isMember
      exact Change.path_eq_of_isTop isTop
  obtain ⟨name, segments_eq⟩ := named
  rw [← Path.head_segments, segments_eq]
  exact Path.eq_of_segments segments_eq

/-! ## Executing actions -/

namespace Service

variable {service : Service} {actions : List (String × UpdateAction)} {old new : Item}
  {name : String} (executed : service.execute (byClause (actionChanges actions)) old = some new)
include executed

theorem get?_of_set (isWord : IsWord name) {value : Value} (isMember : (name, .set value) ∈ actions) :
    new.get? name = some value := by
  have isChange : Change.set [⟨name, ""⟩] (.term (.value value)) ∈ byClause (actionChanges actions) := by
    rw [mem_byClause, actionChanges, List.mem_flatMap]
    exact ⟨_, isMember, by simp [UpdateAction.changes, Path.segments_of_isWord isWord]⟩
  have result := changeTop_of_execute executed isChange rfl
  exact (Option.some.inj result).symm

theorem get?_of_remove (isWord : IsWord name) (isMember : (name, .remove) ∈ actions) :
    new.get? name = none := by
  have isChange : Change.remove [⟨name, ""⟩] ∈ byClause (actionChanges actions) := by
    rw [mem_byClause, actionChanges, List.mem_flatMap]
    exact ⟨_, isMember, by simp [UpdateAction.changes, Path.segments_of_isWord isWord]⟩
  have result := changeTop_of_execute executed isChange rfl
  exact (Option.some.inj result).symm

/-- An attribute that an action clears, by removing it or by null, has no value then. -/
theorem present?_of_clears (isWord : IsWord name) {action : UpdateAction}
    (isMember : (name, action) ∈ actions) (clears : action.clears = true) :
    new.present? name = none := by
  cases action with
  | remove => rw [Item.present?, get?_of_remove executed isWord isMember, Option.filter_none]
  | set value =>
    have isNull : value.isNull = true := clears
    simp [Item.present?, get?_of_set executed isWord isMember, isNull]
  | increment _ | decrement _ | setIfAbsent _ | listAppend _ | add _ | removeAt _ | delete _ =>
    cases clears

/-- An attribute that no action names stays as it is, unless it is a document. -/
theorem get?_of_unnamed (unnamed : ∀ action ∈ actions, action.1 ≠ name)
    (noDocument : ∀ value, old.get? name = some value → value.isDocument = false) :
    new.get? name = old.get? name := by
  apply get?_of_execute_of_inside executed ?_ noDocument
  intro change isMember root_eq
  rw [mem_byClause, actionChanges, List.mem_flatMap] at isMember
  obtain ⟨⟨path, action⟩, isAction, isChange⟩ := isMember
  cases isTop : change.isTop with
  | false => rfl
  | true =>
    have path_eq := UpdateAction.path_of_isTop isChange isTop
    rw [← UpdateAction.root_of_mem_changes isChange, root_eq] at path_eq
    exact absurd path_eq (unnamed _ isAction)

end Service

end SingleTable
