import SingleTable.Proofs.Expression.Demand
import SingleTable.Proofs.Update.Reading

/-!
# Merging updates

Adding actions to clauses does two things that have nothing to do with each other: it makes demands
of the placeholders, and it puts items at the end of the clauses (`Updating.Writes`).  Merging other
clauses does the same with all that they bind and all their items at once.  So it makes no difference
whether actions follow others or are merged into them as clauses of their own
(`Updating.build_applyAll_append`).
-/

namespace SingleTable

/-! ## Items at the end of clauses -/

namespace UpdateClauses

def extend (clauses added : UpdateClauses) (bindings : Bindings) : UpdateClauses :=
  { clauses.append added with bindings }

theorem extend_blank (clauses : UpdateClauses) : clauses.extend {} clauses.bindings = clauses := by
  simp [extend, append]

theorem extend_extend (clauses first second : UpdateClauses) (middle bindings : Bindings) :
    (clauses.extend first middle).extend second bindings =
      clauses.extend (first.append second) bindings := by
  simp [extend, append]

/-- What clauses bind plays no part when their items are put at the end of others. -/
theorem extend_append_extend (clauses first second : UpdateClauses) (middle bindings : Bindings) :
    clauses.extend (first.append (UpdateClauses.extend {} second middle)) bindings =
      clauses.extend (first.append second) bindings := by
  simp [extend, append]

end UpdateClauses

namespace Updating

/-! ## Computations that write -/

/-- A computation succeeds where its demands can be granted; it leaves them granted, and items at
the end of the clauses. -/
def Writes (steps : Updating Unit) (asked : List Demand) (added : UpdateClauses) : Prop :=
  ∀ before after, Succeeds steps before () after ↔
    ∃ bindings, before.bindings.Gains asked bindings ∧ after = before.extend added bindings

variable {asked others : List Demand} {added more : UpdateClauses}

theorem writes_nothing : Writes (pure ()) [] {} := by
  intro before after
  simp [succeeds_pure, Bindings.gains_nil, UpdateClauses.extend_blank]

theorem writes_append (added : UpdateClauses) : Writes (modify (·.append added)) [] added := by
  intro before after
  simp [succeeds_modify, Bindings.gains_nil, UpdateClauses.extend, UpdateClauses.append]

theorem Writes.bind {α : Type} {step : Binding α} {result : α} {next : α → Updating Unit}
    (demands : step.Demands result asked) (writes : Writes (next result) others added) :
    Writes (Updating.bind step >>= next) (asked ++ others) added := by
  intro before after
  rw [succeeds_bind]
  constructor
  · rintro ⟨answer, _, runBind, runNext⟩
    obtain ⟨middle, run, rfl⟩ := (actsOn_bind _).succeeds_iff.1 runBind
    obtain ⟨rfl, gains⟩ := (demands _ _ _).1 run
    obtain ⟨bindings, gainsOthers, rfl⟩ := (writes _ _).1 runNext
    exact ⟨bindings, gains.append gainsOthers, rfl⟩
  · rintro ⟨bindings, gains, rfl⟩
    obtain ⟨middle, gainsFirst, gainsOthers⟩ := Bindings.gains_append_iff.1 gains
    have run := (demands _ _ _).2 ⟨rfl, gainsFirst⟩
    exact ⟨result, { before with bindings := middle }, (actsOn_bind _).succeeds_iff.2 ⟨middle, run, rfl⟩,
      (writes _ _).2 ⟨bindings, gainsOthers, rfl⟩⟩

theorem Writes.andThen {first second : Updating Unit} (writes : Writes first asked added)
    (writesMore : Writes second others more) :
    Writes (do first; second) (asked ++ others) (added.append more) := by
  intro before after
  rw [succeeds_bind]
  constructor
  · rintro ⟨⟨⟩, state, runFirst, runSecond⟩
    obtain ⟨middle, gains, rfl⟩ := (writes _ _).1 runFirst
    obtain ⟨bindings, gainsOthers, rfl⟩ := (writesMore _ _).1 runSecond
    exact ⟨bindings, gains.append gainsOthers, UpdateClauses.extend_extend ..⟩
  · rintro ⟨bindings, gains, rfl⟩
    obtain ⟨middle, gainsFirst, gainsOthers⟩ := Bindings.gains_append_iff.1 gains
    exact ⟨(), before.extend added middle, (writes _ _).2 ⟨middle, gainsFirst, rfl⟩,
      (writesMore _ _).2 ⟨bindings, gainsOthers, (UpdateClauses.extend_extend ..).symm⟩⟩

/-! ## Actions and clauses -/

/-- What an action on a path demands: that its names are bound, and its value if it uses one. -/
def demands (path : String) (action : UpdateAction) : List Demand :=
  ExpressionKind.update.pathDemands path
    ++ (operand? action).toList.map (.value (ExpressionKind.update.valuePlaceholder path ""))

def written (path : String) (action : UpdateAction) : UpdateClauses :=
  items (ExpressionKind.update.referenceText path) (ExpressionKind.update.valuePlaceholder path "") action

theorem writes_apply (path : String) (action : UpdateAction) :
    Writes (apply path action) (demands path action) (written path action) := by
  refine .bind (ExpressionKind.demands_bindPath .update path) ?_
  cases operand_eq : operand? action with
  | none =>
    have items_eq : written path action = items (ExpressionKind.update.referenceText path) "" action := by
      cases action with
      | remove | removeAt => rfl
      | set | increment | decrement | setIfAbsent | listAppend | add | delete => cases operand_eq
    rw [items_eq]
    exact writes_append _
  | some value =>
    have demands := ExpressionKind.update.demands_bindValue path (by decide) "" value
    exact .bind demands (writes_append _)

theorem writes_merge (other : UpdateClauses) : Writes (merge other) other.bindings.demands other := by
  have writes : Writes (merge other) (other.bindings.demands ++ []) other :=
    .bind (Binding.demands_all other.bindings) (writes_append other)
  rwa [List.append_nil] at writes

def demandsAll (actions : List (String × UpdateAction)) : List Demand :=
  actions.flatMap fun (path, action) => demands path action

def writtenAll : List (String × UpdateAction) → UpdateClauses
  | [] => {}
  | (path, action) :: rest => (written path action).append (writtenAll rest)

theorem writes_applyAll (actions : List (String × UpdateAction)) :
    Writes (applyAll actions) (demandsAll actions) (writtenAll actions) := by
  induction actions with
  | nil => exact writes_nothing
  | cons entry actions inductionHypothesis =>
    exact (writes_apply entry.1 entry.2).andThen inductionHypothesis

theorem applyAll_append (first second : List (String × UpdateAction)) :
    applyAll (first ++ second) = (do applyAll first; applyAll second) :=
  List.forM_append

/-! ## Clauses that start anew -/

def outcome (steps : Updating Unit) (clauses : UpdateClauses) : Except Error UpdateClauses :=
  match steps.run.run clauses with
  | (.ok (), after) => .ok after
  | (.error e, _) => .error e

theorem outcome_eq_ok_iff {steps : Updating Unit} {before after : UpdateClauses} :
    outcome steps before = .ok after ↔ Succeeds steps before () after := by
  unfold outcome Succeeds
  rcases (steps.run.run before : Except Error Unit × UpdateClauses) with ⟨_ | ⟨⟨⟩⟩, state⟩
  · exact ⟨nofun, nofun⟩
  · constructor <;> rintro ⟨⟩ <;> rfl

theorem build_eq_outcome (steps : Updating Unit) : build steps = outcome steps {} := rfl

def buildMerged (first second : Updating Unit) : Except Error UpdateClauses := do
  let clauses ← build first
  let other ← build second
  outcome (merge other) clauses

theorem Writes.build_eq_ok_iff {steps : Updating Unit} {clauses : UpdateClauses}
    (writes : Writes steps asked added) :
    build steps = .ok clauses ↔ ∃ bindings, Bindings.Gains {} asked bindings ∧
      clauses = UpdateClauses.extend {} added bindings := by
  rw [build_eq_outcome, outcome_eq_ok_iff]
  exact writes {} clauses

/-- Computations that write build the same one after the other as merged. -/
theorem Writes.buildMerged_eq_ok_iff {first second : Updating Unit} {merged : UpdateClauses}
    (writes : Writes first asked added) (writesMore : Writes second others more) :
    buildMerged first second = .ok merged ↔ build (do first; second) = .ok merged := by
  rw [(writes.andThen writesMore).build_eq_ok_iff]
  simp only [buildMerged, bind_eq_ok, writes.build_eq_ok_iff, writesMore.build_eq_ok_iff, outcome_eq_ok_iff,
    writes_merge _ _ _]
  constructor
  · rintro ⟨_, ⟨middle, gains, rfl⟩, _, ⟨alone, gainsAlone, rfl⟩, bindings, gainsOthers, rfl⟩
    refine ⟨bindings, gains.append ?_, ?_⟩
    · exact (Bindings.gains_congr gainsAlone.mem_demands_iff).1 gainsOthers
    · rw [UpdateClauses.extend_extend, UpdateClauses.extend_append_extend]
  · rintro ⟨bindings, gains, rfl⟩
    obtain ⟨middle, gainsFirst, gainsOthers⟩ := Bindings.gains_append_iff.1 gains
    -- what is demanded after the first computation can be granted to clauses of its own
    obtain ⟨alone, gainsAlone⟩ := Bindings.exists_gains_of_subset gains (List.subset_append_right asked others)
    refine ⟨_, ⟨middle, gainsFirst, rfl⟩, _, ⟨alone, gainsAlone, rfl⟩, bindings, ?_, ?_⟩
    · exact (Bindings.gains_congr gainsAlone.mem_demands_iff).2 gainsOthers
    · rw [UpdateClauses.extend_extend, UpdateClauses.extend_append_extend]

/-- Actions that follow others, and actions merged into those of others, come to the same: both fail
or both succeed, and then with the same clauses, bindings, text and compiled expression. -/
theorem build_applyAll_append (first second : List (String × UpdateAction)) :
    ((∃ joined, build (applyAll (first ++ second)) = .ok joined) ↔
      ∃ merged, buildMerged (applyAll first) (applyAll second) = .ok merged) ∧
    ∀ joined merged, build (applyAll (first ++ second)) = .ok joined →
      buildMerged (applyAll first) (applyAll second) = .ok merged →
      joined.set = merged.set ∧ joined.add = merged.add ∧ joined.remove = merged.remove ∧
      joined.delete = merged.delete ∧ joined.bindings.names = merged.bindings.names ∧
      joined.bindings.values = merged.bindings.values ∧ joined.text = merged.text ∧
      joined.compile = merged.compile := by
  have same (clauses : UpdateClauses) : build (applyAll (first ++ second)) = .ok clauses ↔
      buildMerged (applyAll first) (applyAll second) = .ok clauses := by
    rw [applyAll_append]
    exact ((writes_applyAll first).buildMerged_eq_ok_iff (writes_applyAll second)).symm
  refine ⟨exists_congr same, ?_⟩
  intro joined merged isJoined isMerged
  obtain rfl : joined = merged := Except.ok.inj (((same joined).1 isJoined).symm.trans isMerged)
  simp

def counting : List (String × UpdateAction) :=
  [("legacy", .remove), ("stats.visits", .increment (.number "1"))]

def starting : List (String × UpdateAction) :=
  [("stats.name", .set (.string "x")), ("stats.visits", .setIfAbsent (.number "1"))]

def countingText : String :=
  "SET #UE_stats.#UE_stats_visits = #UE_stats.#UE_stats_visits + :UE_stats_visits, " ++
    "#UE_stats.#UE_stats_name = :UE_stats_name, " ++
    "#UE_stats.#UE_stats_visits = if_not_exists(#UE_stats.#UE_stats_visits, :UE_stats_visits) " ++
    "REMOVE #UE_legacy"

example : (build (applyAll (counting ++ starting))).map (·.text) = .ok countingText ∧
    (buildMerged (applyAll counting) (applyAll starting)).map (·.text) = .ok countingText := by
  decide +kernel

end Updating

end SingleTable
