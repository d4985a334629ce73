import SingleTable.Proofs.Condition.Failure
import SingleTable.Proofs.Update.Merging

/-!
# What a failed step leaves of an update

An action binds its names and its value before it adds an item, and merging binds everything before it
adds the items of other clauses.  So a step that fails adds no item.  But like the steps on drafts it
keeps what it bound before it failed (`failed_steps_keep`), and these placeholders stay in the request
though no text mentions them (`failed_apply_binds`).
-/

namespace SingleTable

namespace Updating

variable {α : Type} {asked others : List Demand}

/-- A computation that fails leaves the items as they were, and the demands met before the one over
which it fails. -/
def FailsOver (steps : Updating Unit) (asked : List Demand) : Prop :=
  ∀ before error after, Fails steps before error after →
    ∃ bindings, after = { before with bindings } ∧ before.bindings.Clashes asked bindings

theorem failsOver_modify (f : UpdateClauses → UpdateClauses) (asked : List Demand) :
    FailsOver (modify f) asked :=
  fun _ _ _ failed => absurd failed not_fails_modify

theorem FailsOver.bind {step : Binding α} {result : α} {next : α → Updating Unit}
    (demands : step.Demands result asked) (first : step.FailsOver asked)
    (second : FailsOver (next result) others) :
    FailsOver (Updating.bind step >>= next) (asked ++ others) := by
  intro before error after failed
  rcases fails_bind.1 failed with failed | ⟨answer, _, run, failed⟩
  · obtain ⟨bindings, own, rfl⟩ := (actsOn_bind _).fails_iff.1 failed
    exact ⟨bindings, rfl, (first _ _ _ own).append others⟩
  · obtain ⟨middle, bound, rfl⟩ := (actsOn_bind _).succeeds_iff.1 run
    obtain ⟨rfl, gains⟩ := (demands _ _ _).1 bound
    obtain ⟨bindings, rfl, clashes⟩ := second _ _ _ failed
    exact ⟨bindings, rfl, gains.clashes clashes⟩

theorem failsOver_apply (path : String) (action : UpdateAction) :
    FailsOver (apply path action) (demands path action) := by
  refine .bind (ExpressionKind.demands_bindPath .update path)
    (ExpressionKind.failsOver_bindPath .update path) ?_
  cases operand? action with
  | none => exact failsOver_modify _ _
  | some value =>
    have demands := ExpressionKind.update.demands_bindValue path (by decide) "" value
    have fails := ExpressionKind.update.failsOver_bindValue path (by decide) "" value
    exact .bind demands fails (failsOver_modify _ [])

def mergeVia (take : Binding Unit) (other : UpdateClauses) : Updating Unit := do
  bind take
  modify (·.append other)

theorem failsOver_mergeVia {take : Binding Unit} (fails : take.FailsOver asked)
    (other : UpdateClauses) : FailsOver (mergeVia take other) asked := by
  intro before error after failed
  rcases fails_bind.1 failed with failed | ⟨⟨⟩, _, -, failed⟩
  · obtain ⟨bindings, own, rfl⟩ := (actsOn_bind _).fails_iff.1 failed
    exact ⟨bindings, rfl, fails _ _ _ own⟩
  · exact absurd failed not_fails_modify

end Updating

/-! ## Steps -/

/-- The steps by which clauses grow. -/
inductive UpdateStep where
  | apply (path : String) (action : UpdateAction)
  | merge (other : UpdateClauses)

namespace UpdateStep

def perform : UpdateStep → Updating Unit
  | apply path action => Updating.apply path action
  | merge other => Updating.merge other

def performVia (take : Bindings → Binding Unit) : UpdateStep → Updating Unit
  | merge other => Updating.mergeVia (take other.bindings) other
  | step => step.perform

theorem perform_eq (step : UpdateStep) : step.perform = step.performVia Binding.all := by
  cases step <;> rfl

/-- What a step demands, in an order in which it may do so. -/
def Asks : UpdateStep → List Demand → Prop
  | apply path action => fun asked => asked = Updating.demands path action
  | merge other => fun asked => asked.Perm other.bindings.demands

/-- What a failed step leaves: everything that was bound before, the demands met before the one over
which it fails, and no item more. -/
structure LeavesFailed (step : UpdateStep) (before after : UpdateClauses) : Prop where
  within : before.bindings.Within after.bindings
  met : ∃ asked, step.Asks asked ∧ before.bindings.Clashes asked after.bindings
  items : after = { before with bindings := after.bindings }

/-- Whichever step fails, in whatever order bindings are taken over. -/
theorem leavesFailed {take : Bindings → Binding Unit}
    (takes : ∀ bindings, (take bindings).TakesOver bindings) {step : UpdateStep}
    {before after : UpdateClauses} {error : Error}
    (failed : Fails (step.performVia take) before error after) : step.LeavesFailed before after := by
  have leaves {asked : List Demand} (asks : step.Asks asked)
      (failsOver : Updating.FailsOver (step.performVia take) asked) :
      step.LeavesFailed before after := by
    obtain ⟨bindings, rfl, clashes⟩ := failsOver _ _ _ failed
    exact ⟨clashes.within, ⟨asked, asks, clashes⟩, rfl⟩
  cases step with
  | apply path action => exact leaves rfl (Updating.failsOver_apply path action)
  | merge other =>
    obtain ⟨asked, isPerm, failsOver⟩ := (takes other.bindings).failsOver
    exact leaves isPerm (Updating.failsOver_mergeVia failsOver other)

end UpdateStep

/-- A step that fails, on a draft or on clauses, keeps every binding that was there and adds those that
it demands before the one over which it fails, which asks for something else than a placeholder stands
for.  It adds no item to clauses, and to the text of a draft no more than a blank, or what a call may
leave; negating and joining leave the text as it was. -/
theorem failed_steps_keep {take : Bindings → Binding Unit}
    (takes : ∀ bindings, (take bindings).TakesOver bindings) :
    (∀ (step : DraftStep) before error after, Fails (step.performVia take) before error after →
      step.LeavesFailed before after) ∧
    ∀ (step : UpdateStep) before error after, Fails (step.performVia take) before error after →
      step.LeavesFailed before after :=
  ⟨fun _ _ _ _ failed => DraftStep.leavesFailed takes failed,
    fun _ _ _ _ failed => UpdateStep.leavesFailed takes failed⟩

def comparedDraft : Draft where
  kind := .condition
  last := some "#CE_x_b"
  after := " = :CE_x_b"
  bindings := ⟨.ofList [("#CE_x_b", "x_b")], .ofList [(":CE_x_b", .string "1")]⟩

def removingClauses : UpdateClauses where
  remove := ["#UE_x_b"]
  bindings := ⟨.ofList [("#UE_x_b", "x_b")], ∅⟩

def comparing : DraftStep := .test "x.b" (.compare .equal (.string "1"))

def setting : UpdateStep := .apply "x.b" (.set (.string "1"))

/-- Both fail over `x.b`, which asks for a placeholder that is taken. -/
theorem failed_steps_keep_underscored :
    (∀ bindings, (Binding.all bindings).TakesOver bindings) ∧
    (∃ error after, Fails comparing.perform comparedDraft error after ∧
      comparing.LeavesFailed comparedDraft after) ∧
    ∃ error after, Fails setting.perform removingClauses error after ∧
      setting.LeavesFailed removingClauses after := by
  obtain ⟨drafts, updates⟩ := failed_steps_keep Binding.takesOver_all
  rw [comparing.perform_eq, setting.perform_eq]
  obtain ⟨draftError, draftFails⟩ :=
    exists_fails (comparing.performVia Binding.all) comparedDraft (by decide +kernel)
  obtain ⟨error, clausesFail⟩ :=
    exists_fails (setting.performVia Binding.all) removingClauses (by decide +kernel)
  exact ⟨Binding.takesOver_all, ⟨draftError, _, draftFails, drafts _ _ _ _ draftFails⟩,
    error, _, clausesFail, updates _ _ _ _ clausesFail⟩

/-- The clauses keep a placeholder of the step that failed, which no item mentions. -/
theorem failed_apply_binds :
    Succeeds (Updating.apply "x_b" .remove) {} () removingClauses ∧
    ∃ error after, Fails (Updating.apply "x.b" (.set (.string "1"))) removingClauses error after ∧
      after.bindings.names.get? "#UE_x" = some "x" ∧
      removingClauses.bindings.names.get? "#UE_x" = none := by
  obtain ⟨error, failed⟩ := exists_fails (Updating.apply "x.b" (.set (.string "1"))) removingClauses
    (by decide +kernel)
  exact ⟨Updating.outcome_eq_ok_iff.1 (by decide +kernel), error, _, failed, by decide +kernel,
    by decide +kernel⟩

end SingleTable
