import SingleTable.Proofs.Expression.Demand

/-!
# What a failed computation leaves behind

A computation that binds placeholders makes its demands one after the other and fails over the first
that conflicts with what a placeholder stands for already.  Nothing undoes the demands met before that
one: they stay bound (`Bindings.Clashes`).  So to say what is left it is enough to list the demands of
a computation in the order in which it makes them (`Binding.FailsOver`).
-/

namespace SingleTable

/-! ## Steps that fail -/

section Steps

variable {σ α β : Type} {before after : σ} {error : Error}

def Fails (step : ExceptT Error (StateM σ) α) (before : σ) (error : Error) (after : σ) : Prop :=
  (step.run.run before : Except Error α × σ) = (.error error, after)

/-- A sequence of two steps fails if the first does, or the second after it. -/
theorem fails_bind {step : ExceptT Error (StateM σ) α} {next : α → ExceptT Error (StateM σ) β} :
    Fails (step >>= next) before error after ↔ Fails step before error after ∨
      ∃ middle state, Succeeds step before middle state ∧ Fails (next middle) state error after := by
  unfold Fails Succeeds
  rw [run_bind]
  rcases (step.run.run before : Except Error α × σ) with ⟨outcome, state⟩
  cases outcome with
  | error error' =>
    constructor
    · intro failed
      cases failed
      exact .inl rfl
    · rintro (failed | ⟨middle, state', run, -⟩)
      · cases failed
        rfl
      · cases run
  | ok middle =>
    constructor
    · exact fun failed => .inr ⟨middle, state, rfl, failed⟩
    · rintro (failed | ⟨middle', state', run, failed⟩)
      · cases failed
      · cases run
        exact failed

theorem ActsOn.fails_iff {τ : Type} {step : ExceptT Error (StateM σ) α}
    {inner : ExceptT Error (StateM τ) α} {part : σ → τ} {put : σ → τ → σ}
    (actsOn : ActsOn step inner part put) :
    Fails step before error after ↔
      ∃ state, Fails inner (part before) error state ∧ after = put before state :=
  actsOn.run_eq_iff

theorem not_fails_pure {value : α} : ¬ Fails (pure value) before error after := by
  change ¬ ((.ok value, before) : Except Error α × σ) = _
  simp

theorem not_fails_modify {f : σ → σ} : ¬ Fails (modify f) before error after := by
  change ¬ ((.ok ⟨⟩, f before) : Except Error PUnit × σ) = _
  simp

theorem not_fails_get : ¬ Fails get before error after := by
  change ¬ ((.ok before, before) : Except Error σ × σ) = _
  simp

theorem fails_throw {error' : Error} :
    Fails (throw error' : ExceptT Error (StateM σ) α) before error after ↔
      error = error' ∧ after = before := by
  change ((.error error', before) : Except Error α × σ) = _ ↔ _
  simp [eq_comm]

/-- A step without a result has failed. -/
theorem exists_fails (step : ExceptT Error (StateM σ) α) (before : σ)
    (noResult : (step.run.run before : Except Error α × σ).1.toOption = none) :
    ∃ error, Fails step before error (step.run.run before : Except Error α × σ).2 := by
  unfold Fails
  generalize (step.run.run before : Except Error α × σ) = outcome at noResult ⊢
  obtain ⟨error | result, state⟩ := outcome
  · exact ⟨error, rfl⟩
  · cases noResult

end Steps

/-! ## Demands up to the first that cannot be met -/

namespace Bindings

variable {before middle after : Bindings} {asked others : List Demand}

theorem Gains.within (gains : before.Gains asked after) : before.Within after where
  names {placeholder name} isBound := (gains (.name placeholder name)).2 (.inl isBound)
  values {placeholder value} isBound := (gains (.value placeholder value)).2 (.inl isBound)

/-- Demands are met in their order up to one that conflicts with what is granted by then. -/
def Clashes (before : Bindings) (asked : List Demand) (after : Bindings) : Prop :=
  ∃ met missed rest granted, asked = met ++ missed :: rest ∧ before.Gains met after ∧
    after.Grants granted ∧ missed.Conflict granted

theorem Clashes.within (clashes : before.Clashes asked after) : before.Within after := by
  obtain ⟨met, missed, rest, granted, -, gains, -⟩ := clashes
  exact gains.within

/-- What would be demanded later does not count. -/
theorem Clashes.append (clashes : before.Clashes asked after) (others : List Demand) :
    before.Clashes (asked ++ others) after := by
  obtain ⟨met, missed, rest, granted, rfl, gains, conflict⟩ := clashes
  exact ⟨met, missed, rest ++ others, granted, by simp, gains, conflict⟩

theorem Gains.clashes (gains : before.Gains asked middle) (clashes : middle.Clashes others after) :
    before.Clashes (asked ++ others) after := by
  obtain ⟨met, missed, rest, granted, rfl, gainsMet, conflict⟩ := clashes
  exact ⟨asked ++ met, missed, rest, granted, by simp, gains.append gainsMet, conflict⟩

end Bindings

/-! ## Computations that only bind -/

namespace Binding

variable {α β : Type} {asked others : List Demand}

/-- If a computation fails, then over one of its demands, which it makes in the order given. -/
def FailsOver (step : Binding α) (asked : List Demand) : Prop :=
  ∀ before error after, Fails step before error after → before.Clashes asked after

theorem failsOver_pure (result : α) (asked : List Demand) : FailsOver (pure result) asked :=
  fun _ _ _ failed => absurd failed not_fails_pure

theorem FailsOver.bind {step : Binding α} {next : α → Binding β} {middle : α}
    (demands : Demands step middle asked) (first : FailsOver step asked)
    (second : FailsOver (next middle) others) : FailsOver (step >>= next) (asked ++ others) := by
  intro before error after failed
  rcases fails_bind.1 failed with failed | ⟨result, state, run, failed⟩
  · -- what comes after a failure is not demanded any more
    exact (first _ _ _ failed).append others
  · obtain ⟨rfl, gains⟩ := (demands _ _ _).1 run
    exact gains.clashes (second _ _ _ failed)

theorem FailsOver.andThen {step : Binding PUnit} {next : Binding β} (demands : Demands step ⟨⟩ asked)
    (first : FailsOver step asked) (second : FailsOver next others) :
    FailsOver (do step; next) (asked ++ others) :=
  .bind demands first second

/-- A demand that fails leaves the bindings as they were. -/
theorem failsOver_step (demand : Demand) : FailsOver demand.step [demand] := by
  have clashes {before : Bindings} (granted : Demand) (isGranted : before.Grants granted)
      (conflict : demand.Conflict granted) : before.Clashes [demand] before :=
    ⟨[], demand, [], granted, rfl, Bindings.gains_nil.2 rfl, isGranted, conflict⟩
  intro before error after failed
  cases demand with
  | name placeholder requested =>
    simp only [Fails, ExceptT.run, StateT.run, Demand.step, name] at failed
    split at failed
    · next bound isBound =>
      split at failed
      · cases (Prod.mk.inj failed).1
      · next differ =>
        obtain rfl := (Prod.mk.inj failed).2
        exact clashes (.name placeholder bound) isBound (.name (Ne.symm differ))
    · cases (Prod.mk.inj failed).1
  | value placeholder requested =>
    simp only [Fails, ExceptT.run, StateT.run, Demand.step, value] at failed
    split at failed
    · next bound isBound =>
      split at failed
      · cases (Prod.mk.inj failed).1
      · next differ =>
        obtain rfl := (Prod.mk.inj failed).2
        exact clashes (.value placeholder bound) isBound (.value (Ne.symm differ))
    · cases (Prod.mk.inj failed).1

theorem failsOver_forM (demand : α → Demand) (elements : List α) :
    FailsOver (elements.forM fun element => (demand element).step) (elements.map demand) := by
  induction elements with
  | nil => exact failsOver_pure _ _
  | cons element elements inductionHypothesis =>
    exact .andThen (demands_step (demand element)) (failsOver_step (demand element)) inductionHypothesis

/-- Taking bindings over fails over the entries, in the order in which they come. -/
theorem failsOver_entries (names : List (String × String)) (values : List (String × Value)) :
    FailsOver (do
        names.forM fun (placeholder, requested) => name placeholder requested
        values.forM fun (placeholder, requested) => value placeholder requested)
      (names.map (fun entry => .name entry.1 entry.2) ++
        values.map fun entry => .value entry.1 entry.2) := by
  have fails := FailsOver.andThen (demands_forM (fun entry => .name entry.1 entry.2) names)
    (failsOver_forM (fun entry => .name entry.1 entry.2) names)
    (failsOver_forM (fun entry => .value entry.1 entry.2) values)
  exact fails

end Binding

/-! ## Paths and values -/

namespace ExpressionKind

variable (kind : ExpressionKind) (path : String)

theorem failsOver_bindPath : Binding.FailsOver (kind.bindPath path) (kind.pathDemands path) := by
  let demand (reference : Reference) : Demand := .name reference.placeholder reference.name
  have fails := Binding.FailsOver.andThen (Binding.demands_forM demand (kind.references path))
    (Binding.failsOver_forM demand (kind.references path))
    (Binding.failsOver_pure (kind.referenceText path) [])
  rwa [List.append_nil] at fails

theorem failsOver_bindValue (notProjection : kind ≠ .projection) (suffix : String) (value : Value) :
    Binding.FailsOver (kind.bindValue path suffix value)
      [.value (kind.valuePlaceholder path suffix) value] := by
  let demand : Demand := .value (kind.valuePlaceholder path suffix) value
  have fails := Binding.FailsOver.andThen (Binding.demands_step demand) (Binding.failsOver_step demand)
    (Binding.failsOver_pure (kind.valuePlaceholder path suffix) [])
  unfold bindValue
  rw [if_neg notProjection]
  exact fails

end ExpressionKind

end SingleTable
