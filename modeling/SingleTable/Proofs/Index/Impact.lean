import Mathlib.Data.List.Nodup
import SingleTable.Proofs.Entity.Update

/-!
# What an update does to an index

Every index falls into one of three cases: no name of it is touched, one of them is cleared and
with it the whole index, or some are assigned and the whole index is derived anew
(`indexChanges_cases`).  The changes of different indexes do not meet.
-/

namespace SingleTable

/-- Only an assignment of a scalar counts as a literal. -/
theorem UpdateAction.literal?_eq_some_iff {action : UpdateAction} {value : Value} :
    action.literal? = some value ↔ action = .set value ∧ value.isScalar = true := by
  cases action with
  | set assigned =>
    by_cases isScalar : assigned.isScalar = true
    · simp only [literal?, isScalar, if_true, Option.some.injEq, set.injEq]
      constructor
      · rintro rfl
        exact ⟨rfl, isScalar⟩
      · exact fun same => same.1
    · simp only [literal?, isScalar, set.injEq]
      constructor
      · intro none_eq
        cases none_eq
      · rintro ⟨rfl, isAssigned⟩
        exact absurd isAssigned isScalar
  | increment _ | decrement _ | setIfAbsent _ | listAppend _ | add _ | remove | removeAt _
  | delete _ => simp [literal?]

namespace Entity

variable {entity : Entity} {body : UpdateBody}

/-! ## One index -/

/-- What the impact on an index tells about the names it refers to. -/
def Explains (body : UpdateBody) (sparse : Bool) (names : List String) : IndexImpact → Prop
  | .untouched => ∀ name ∈ names, body.get? name = none
  | .cleared => sparse = true ∧ ∃ name ∈ names, ∃ action, body.get? name = some action ∧
      action.clears = true
  | .changed => ∀ name ∈ names, body.get? name = none ∨
      ∃ value, body.get? name = some (.set value) ∧ value.isScalar = true

theorem impactOn_explains {sparse : Bool} {part : KeyPart} {name : String} {impact : IndexImpact}
    (isScalar : (entity.attribute? name).any (·.type.isScalar) = true)
    (isImpact : entity.impactOn body sparse part name = .ok impact) :
    Explains body sparse [name] impact := by
  unfold impactOn at isImpact
  split at isImpact
  · next notFound =>
    obtain rfl := Except.ok.inj isImpact
    simpa [Explains] using notFound
  · next action found =>
    rw [if_neg (by simp [isScalar])] at isImpact
    split at isImpact
    · next clears =>
      split at isImpact
      · next isSparse =>
        obtain rfl := Except.ok.inj isImpact
        exact ⟨isSparse, name, by simp, action, found, clears⟩
      · cases isImpact
    · split at isImpact
      · next isLiteral =>
        obtain rfl := Except.ok.inj isImpact
        obtain ⟨value, literal_eq⟩ := Option.isSome_iff_exists.1 isLiteral
        obtain ⟨rfl, assignedScalar⟩ := UpdateAction.literal?_eq_some_iff.1 literal_eq
        intro other isMember
        obtain rfl := List.mem_singleton.1 isMember
        exact .inr ⟨value, found, assignedScalar⟩
      · cases isImpact

theorem explains_join {sparse : Bool} {first others : List String}
    {firstImpact otherImpact : IndexImpact} (firstExplains : Explains body sparse first firstImpact)
    (othersExplain : Explains body sparse others otherImpact) :
    Explains body sparse (first ++ others) (firstImpact.join otherImpact) := by
  have cleared : ∀ {names : List String}, Explains body sparse names .cleared →
      (∀ name ∈ names, name ∈ first ++ others) → Explains body sparse (first ++ others) .cleared := by
    rintro names ⟨isSparse, name, isMember, action, found⟩ subset
    exact ⟨isSparse, name, subset name isMember, action, found⟩
  have both : ∀ {impact : IndexImpact}, impact = .changed ∨ impact = .untouched →
      ∀ {names : List String}, Explains body sparse names impact → ∀ name ∈ names,
        body.get? name = none ∨
          ∃ value, body.get? name = some (.set value) ∧ value.isScalar = true := by
    rintro impact (rfl | rfl) names explains name isMember
    · exact explains name isMember
    · exact .inl (explains name isMember)
  cases firstImpact with
  | cleared => exact cleared firstExplains fun name isMember => by simp [isMember]
  | untouched | changed =>
    cases otherImpact with
    | cleared => exact cleared othersExplain fun name isMember => by simp [isMember]
    | untouched | changed =>
      intro name isMember
      rcases List.mem_append.1 isMember with isMember | isMember
      · first
        | exact firstExplains name isMember
        | exact both (by simp) firstExplains name isMember
      · first
        | exact othersExplain name isMember
        | exact both (by simp) othersExplain name isMember

theorem impactOnAll_explains {sparse : Bool} {references : List (KeyPart × String)}
    {impact : IndexImpact}
    (areScalar : ∀ reference ∈ references,
      (entity.attribute? reference.2).any (·.type.isScalar) = true)
    (isImpact : entity.impactOnAll body sparse references = .ok impact) :
    Explains body sparse (references.map Prod.snd) impact := by
  induction references generalizing impact with
  | nil =>
    obtain rfl := Except.ok.inj isImpact
    simp [Explains]
  | cons reference references inductionHypothesis =>
    obtain ⟨first, isFirst, rest⟩ := bind_eq_ok.1 isImpact
    obtain ⟨others, areOthers, answer⟩ := bind_eq_ok.1 rest
    obtain rfl := Except.ok.inj answer
    exact explains_join (impactOn_explains (areScalar reference (by simp)) isFirst)
      (inductionHypothesis (fun other isMember => areScalar other (by simp [isMember])) areOthers)

/-- The three things an update can do to an index. -/
theorem indexChanges_cases {values : Item} {index : IndexLayout} {changes : KeyChanges}
    (areScalar : ∀ name ∈ index.names, (entity.attribute? name).any (·.type.isScalar) = true)
    (areChanges : entity.indexChanges body values index = .ok changes) :
    (changes = {} ∧ Explains body index.sparse index.names .untouched) ∨
      (changes = { remove := index.parts.map (·.attr) } ∧
        Explains body index.sparse index.names .cleared) ∨
      ∃ set, changes = { set } ∧ KeyPart.resolveAll .strict values index.parts = .ok set ∧
        Explains body index.sparse index.names .changed := by
  obtain ⟨impact, isImpact, rest⟩ := bind_eq_ok.1 areChanges
  have names_eq := index.map_snd_references
  have explains := impactOnAll_explains (by
    intro reference isMember
    apply areScalar
    rw [← names_eq]
    exact List.mem_map.2 ⟨reference, isMember, rfl⟩) isImpact
  rw [names_eq] at explains
  cases impact with
  | untouched =>
    obtain rfl := Except.ok.inj rest
    exact .inl ⟨rfl, explains⟩
  | cleared =>
    obtain rfl := Except.ok.inj rest
    exact .inr (.inl ⟨rfl, explains⟩)
  | changed =>
    dsimp only at rest
    split at rest
    · next set set_eq =>
      obtain rfl := Except.ok.inj rest
      exact .inr (.inr ⟨set, rfl, set_eq, explains⟩)
    · cases rest

theorem mem_attributes_of_indexChanges {values : Item} {index : IndexLayout} {changes : KeyChanges}
    (areChanges : entity.indexChanges body values index = .ok changes)
    {action : String × UpdateAction} (isMember : action ∈ changes.actions) :
    action.1 ∈ index.parts.map (·.attr) := by
  obtain ⟨impact, isImpact, rest⟩ := bind_eq_ok.1 areChanges
  cases impact with
  | untouched =>
    obtain rfl := Except.ok.inj rest
    simp [KeyChanges.actions] at isMember
  | cleared =>
    obtain rfl := Except.ok.inj rest
    simp only [KeyChanges.actions, List.map_nil, List.nil_append, List.mem_map] at isMember
    obtain ⟨attr, isPart, rfl⟩ := isMember
    simpa using isPart
  | changed =>
    dsimp only at rest
    split at rest
    · next set set_eq =>
      obtain rfl := Except.ok.inj rest
      simp only [KeyChanges.actions, List.map_nil, List.append_nil, List.mem_map] at isMember
      obtain ⟨entry, isEntry, rfl⟩ := isMember
      rw [← KeyPart.names_of_resolveAll set_eq]
      exact List.mem_map.2 ⟨entry, isEntry, rfl⟩
    · cases rest

/-! ## All indexes -/

theorem mem_actions_append {first second : KeyChanges} {action : String × UpdateAction} :
    action ∈ (first.append second).actions ↔ action ∈ first.actions ∨ action ∈ second.actions := by
  simp only [KeyChanges.actions, KeyChanges.append, List.map_append, List.mem_append]
  tauto

theorem allIndexChanges_each {values : Item} {indexes : List IndexLayout} {changes : KeyChanges}
    (areChanges : entity.allIndexChanges body values indexes = .ok changes) :
    (∀ index ∈ indexes, ∃ own, entity.indexChanges body values index = .ok own ∧
        ∀ action ∈ own.actions, action ∈ changes.actions) ∧
      ∀ action ∈ changes.actions, ∃ index ∈ indexes, ∃ own,
        entity.indexChanges body values index = .ok own ∧ action ∈ own.actions := by
  induction indexes generalizing changes with
  | nil =>
    obtain rfl := Except.ok.inj areChanges
    exact ⟨by simp, by simp [KeyChanges.actions]⟩
  | cons first indexes inductionHypothesis =>
    obtain ⟨own, isOwn, rest⟩ := bind_eq_ok.1 areChanges
    obtain ⟨others, areOthers, answer⟩ := bind_eq_ok.1 rest
    obtain rfl := Except.ok.inj answer
    obtain ⟨each, origin⟩ := inductionHypothesis areOthers
    constructor
    · intro index isMember
      rcases List.mem_cons.1 isMember with rfl | isMember
      · exact ⟨own, isOwn, fun action isAction => mem_actions_append.2 (.inl isAction)⟩
      · obtain ⟨ownOther, isOwnOther, subset⟩ := each index isMember
        exact ⟨ownOther, isOwnOther, fun action isAction =>
          mem_actions_append.2 (.inr (subset action isAction))⟩
    · intro action isAction
      rcases mem_actions_append.1 isAction with isAction | isAction
      · exact ⟨first, by simp, own, isOwn, isAction⟩
      · obtain ⟨index, isIndex, ownOther, isOwnOther, isAction⟩ := origin action isAction
        exact ⟨index, by simp [isIndex], ownOther, isOwnOther, isAction⟩

/-- Different indexes have no attribute in common. -/
theorem index_eq_of_attr_eq (nodup : entity.indexAttributes.Nodup) {first second : IndexLayout}
    (isFirst : first ∈ entity.indexes) (isSecond : second ∈ entity.indexes) {attr : String}
    (inFirst : attr ∈ first.parts.map (·.attr)) (inSecond : attr ∈ second.parts.map (·.attr)) :
    first = second := by
  unfold indexAttributes at nodup
  rw [List.map_flatMap, List.nodup_flatMap] at nodup
  by_contra differ
  have symmetric : Std.Symm (Function.onFun List.Disjoint fun index : IndexLayout =>
      index.parts.map (·.attr)) := ⟨fun _ _ disjoint _ inFirst inSecond => disjoint inSecond inFirst⟩
  have disjoint := nodup.2.forall isFirst isSecond differ
  exact disjoint inFirst inSecond

/-- What an update does to the attributes of one index is decided by that index alone. -/
theorem affectedIndexes_each {context : Item} {changes : KeyChanges}
    (nodup : entity.indexAttributes.Nodup)
    (affected : entity.affectedIndexes body context = .ok changes) {index : IndexLayout}
    (isIndex : index ∈ entity.indexes) :
    ∃ own, entity.indexChanges body (knownValues body context) index = .ok own ∧
      ∀ attr ∈ index.parts.map (·.attr), ∀ action,
        (attr, action) ∈ changes.actions ↔ (attr, action) ∈ own.actions := by
  obtain ⟨each, origin⟩ := allIndexChanges_each affected
  obtain ⟨own, isOwn, subset⟩ := each index isIndex
  refine ⟨own, isOwn, ?_⟩
  intro attr isAttr action
  constructor
  · intro isAction
    obtain ⟨other, isOther, ownOther, isOwnOther, inOther⟩ := origin _ isAction
    obtain rfl := index_eq_of_attr_eq nodup isIndex isOther isAttr
      (mem_attributes_of_indexChanges isOwnOther inOther)
    rw [isOwn] at isOwnOther
    obtain rfl := Except.ok.inj isOwnOther
    exact inOther
  · exact fun isAction => subset _ isAction

theorem mem_indexAttributes_of_affected {context : Item} {changes : KeyChanges}
    (affected : entity.affectedIndexes body context = .ok changes) {action : String × UpdateAction}
    (isAction : action ∈ changes.actions) : action.1 ∈ entity.indexAttributes := by
  obtain ⟨index, isIndex, own, isOwn, isAction⟩ := (allIndexChanges_each affected).2 _ isAction
  obtain ⟨part, isPart, attr_eq⟩ := List.mem_map.1 (mem_attributes_of_indexChanges isOwn isAction)
  exact List.mem_map.2 ⟨part, List.mem_flatMap.2 ⟨index, isIndex, isPart⟩, attr_eq⟩

/-! ## Values known after an update -/

theorem get?_knownValues {context : Item} {name : String} :
    (knownValues body context).get? name =
      ((body.get? name).bind (·.literal?)).or (context.get? name) := by
  obtain ⟨actions, nodup⟩ := body
  simp only [knownValues, UpdateBody.get?]
  induction actions generalizing context with
  | nil => rfl
  | cons entry actions inductionHypothesis =>
    obtain ⟨path, action⟩ := entry
    rw [List.map_cons, List.nodup_cons] at nodup
    rw [List.foldl_cons, inductionHypothesis nodup.2]
    by_cases same : path = name
    · subst same
      have notLater : actions.find? (fun e => decide (e.1 = path)) = none := by
        rw [List.find?_eq_none]
        intro e isMember
        have differs : e.1 ≠ path := fun same => nodup.1 (List.mem_map.2 ⟨e, isMember, same⟩)
        simpa using differs
      rw [notLater, List.find?_cons_of_pos (by simp)]
      cases literal_eq : action.literal? with
      | none => simp [literal_eq]
      | some value => simp [literal_eq]
    · rw [List.find?_cons_of_neg (by simpa using same)]
      congr 1
      cases action.literal? with
      | none => rfl
      | some value => exact NameMap.get?_insert_of_ne _ _ same

end Entity

end SingleTable
