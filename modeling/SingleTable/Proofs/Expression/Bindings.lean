import SingleTable.Condition

/-!
# Bindings only grow

Drafts, clauses and requests are all built by steps that carry a state through errors.
`succeeds_bind` takes such a step apart; everything else about the steps that bind placeholders
follows from two facts: a step that succeeds keeps every binding made before it
(`Bindings.Within`), and the placeholder it answers stands for what was asked.
-/

namespace SingleTable

/-! ## Steps that succeed -/

section Steps

variable {σ α β : Type}

def Succeeds (step : ExceptT Error (StateM σ) α) (before : σ) (result : α) (after : σ) : Prop :=
  (step.run.run before : Except Error α × σ) = (.ok result, after)

/-- A sequence of two steps goes on where the first one succeeded. -/
theorem run_bind (step : ExceptT Error (StateM σ) α) (next : α → ExceptT Error (StateM σ) β)
    (before : σ) : ((step >>= next).run.run before : Except Error β × σ) =
      match (step.run.run before : Except Error α × σ) with
      | (.ok middle, state) => (next middle).run.run state
      | (.error error, state) => (.error error, state) := by
  change ExceptT.bindCont next (step.run.run before).1 (step.run.run before).2 = _
  rcases (step.run.run before : Except Error α × σ) with ⟨outcome, state⟩
  cases outcome <;> rfl

/-- A sequence of two steps succeeds when both do, one after the other. -/
theorem succeeds_bind {step : ExceptT Error (StateM σ) α} {next : α → ExceptT Error (StateM σ) β}
    {before after : σ} {result : β} :
    Succeeds (step >>= next) before result after ↔
      ∃ middle state, Succeeds step before middle state ∧ Succeeds (next middle) state result after := by
  unfold Succeeds
  rw [run_bind]
  rcases (step.run.run before : Except Error α × σ) with ⟨outcome, state⟩
  cases outcome with
  | error error =>
    constructor
    · intro run
      cases run
    · rintro ⟨_, _, run, _⟩
      cases run
  | ok middle =>
    constructor
    · intro run
      exact ⟨middle, state, rfl, run⟩
    · rintro ⟨_, _, run, rest⟩
      cases run
      exact rest

theorem succeeds_pure {value result : α} {before after : σ} :
    Succeeds (pure value) before result after ↔ result = value ∧ after = before := by
  change ((.ok value, before) : Except Error α × σ) = _ ↔ _
  simp [eq_comm]

theorem succeeds_modify {f : σ → σ} {before after : σ} {result : PUnit} :
    Succeeds (modify f) before result after ↔ after = f before := by
  change ((.ok ⟨⟩, f before) : Except Error PUnit × σ) = _ ↔ _
  simp [eq_comm]

theorem succeeds_get {before after result : σ} :
    Succeeds get before result after ↔ result = before ∧ after = before := by
  change ((.ok before, before) : Except Error σ × σ) = _ ↔ _
  simp [eq_comm]

theorem not_succeeds_throw {error : Error} {before after : σ} {result : α} :
    ¬ Succeeds (throw error) before result after := by
  change ¬ ((.error error, before) : Except Error α × σ) = _
  simp

/-- A step on part of a state, which leaves the rest as it is. -/
def ActsOn {τ : Type} (step : ExceptT Error (StateM σ) α) (inner : ExceptT Error (StateM τ) α)
    (part : σ → τ) (put : σ → τ → σ) : Prop :=
  ∀ before, (step.run.run before : Except Error α × σ) =
    Prod.map id (put before) (inner.run.run (part before))

section Parts

variable {τ : Type} {step : ExceptT Error (StateM σ) α} {inner : ExceptT Error (StateM τ) α}
  {part : σ → τ} {put : σ → τ → σ} {before after : σ}

theorem ActsOn.run_eq_iff (actsOn : ActsOn step inner part put) {outcome : Except Error α} :
    (step.run.run before : Except Error α × σ) = (outcome, after) ↔
      ∃ state, (inner.run.run (part before) : Except Error α × τ) = (outcome, state) ∧
        after = put before state := by
  rw [actsOn before]
  rcases (inner.run.run (part before) : Except Error α × τ) with ⟨answer, state⟩
  constructor
  · rintro ⟨⟩
    exact ⟨state, rfl, rfl⟩
  · rintro ⟨_, ⟨⟩, rfl⟩
    rfl

theorem ActsOn.succeeds_iff (actsOn : ActsOn step inner part put) {result : α} :
    Succeeds step before result after ↔
      ∃ state, Succeeds inner (part before) result state ∧ after = put before state :=
  actsOn.run_eq_iff

end Parts

theorem bind_eq_ok {ε : Type} {outcome : Except ε α} {next : α → Except ε β} {result : β} :
    outcome >>= next = .ok result ↔ ∃ middle, outcome = .ok middle ∧ next middle = .ok result := by
  cases outcome with
  | error error =>
    constructor
    · intro outcome_eq
      cases outcome_eq
    · rintro ⟨_, outcome_eq, _⟩
      cases outcome_eq
  | ok middle =>
    constructor
    · intro outcome_eq
      exact ⟨middle, rfl, outcome_eq⟩
    · rintro ⟨_, outcome_eq, rest⟩
      cases outcome_eq
      exact rest

/-- An outcome whose result passes a check is a result. -/
theorem exists_of_any {ε : Type} {outcome : Except ε α} {passes : α → Bool}
    (checked : outcome.toOption.any passes = true) :
    ∃ result, outcome = .ok result ∧ passes result = true := by
  cases outcome with
  | error error => cases checked
  | ok result => exact ⟨result, rfl, checked⟩

/-- A sequence of two outcomes fails when the first does, or the second after it. -/
theorem bind_eq_error {ε : Type} {outcome : Except ε α} {next : α → Except ε β} {error : ε} :
    outcome >>= next = .error error ↔
      outcome = .error error ∨ ∃ middle, outcome = .ok middle ∧ next middle = .error error := by
  cases outcome with
  | error other =>
    constructor
    · intro outcome_eq
      cases outcome_eq
      exact .inl rfl
    · rintro (outcome_eq | ⟨_, outcome_eq, -⟩)
      · cases outcome_eq
        rfl
      · cases outcome_eq
  | ok middle =>
    constructor
    · intro outcome_eq
      exact .inr ⟨middle, rfl, outcome_eq⟩
    · rintro (outcome_eq | ⟨_, outcome_eq, rest⟩)
      · cases outcome_eq
      · cases outcome_eq
        exact rest

theorem map_eq_ok {ε : Type} {f : α → β} {outcome : Except ε α} {result : β} :
    f <$> outcome = .ok result ↔ ∃ middle, outcome = .ok middle ∧ f middle = result := by
  cases outcome with
  | error error =>
    constructor
    · intro outcome_eq
      cases outcome_eq
    · rintro ⟨_, outcome_eq, _⟩
      cases outcome_eq
  | ok middle =>
    constructor
    · intro outcome_eq
      cases outcome_eq
      exact ⟨middle, rfl, rfl⟩
    · rintro ⟨_, outcome_eq, rfl⟩
      cases outcome_eq
      rfl

/-- What every step of a loop keeps is kept by the loop, and what a step achieves stays. -/
theorem succeeds_forM {step : β → ExceptT Error (StateM σ) PUnit} {Keeps : σ → σ → Prop}
    (Done : β → σ → Prop) (refl : ∀ state, Keeps state state)
    (trans : ∀ {first second third}, Keeps first second → Keeps second third → Keeps first third)
    (stays : ∀ {element first second}, Done element first → Keeps first second → Done element second)
    (each : ∀ {element before after}, Succeeds (step element) before ⟨⟩ after →
      Keeps before after ∧ Done element after)
    {elements : List β} {before after : σ} (run : Succeeds (elements.forM step) before ⟨⟩ after) :
    Keeps before after ∧ ∀ element ∈ elements, Done element after := by
  induction elements generalizing before with
  | nil =>
    obtain ⟨-, rfl⟩ := succeeds_pure.1 run
    exact ⟨refl _, by simp⟩
  | cons element elements inductionHypothesis =>
    obtain ⟨⟨⟩, state, runFirst, runOthers⟩ := succeeds_bind.1 run
    obtain ⟨keepsFirst, doneFirst⟩ := each runFirst
    obtain ⟨keepsOthers, doneOthers⟩ := inductionHypothesis runOthers
    refine ⟨trans keepsFirst keepsOthers, ?_⟩
    intro other isMember
    rcases List.mem_cons.1 isMember with rfl | isMember
    · exact stays doneFirst keepsOthers
    · exact doneOthers other isMember

end Steps

/-! ## Growing bindings -/

/-- Whatever stands for something in `bindings` stands for the same in `larger`. -/
structure Bindings.Within (bindings larger : Bindings) : Prop where
  names : ∀ {placeholder name},
    bindings.names.get? placeholder = some name → larger.names.get? placeholder = some name
  values : ∀ {placeholder value},
    bindings.values.get? placeholder = some value → larger.values.get? placeholder = some value

namespace Bindings.Within

theorem refl (bindings : Bindings) : bindings.Within bindings := ⟨id, id⟩

theorem trans {first second third : Bindings} (one : first.Within second)
    (two : second.Within third) : first.Within third :=
  ⟨two.names ∘ one.names, two.values ∘ one.values⟩

end Bindings.Within

namespace Binding

theorem succeeds_name {placeholder requested : String} {before after : Bindings}
    (run : Succeeds (name placeholder requested) before () after) :
    before.Within after ∧ after.names.get? placeholder = some requested := by
  simp only [Succeeds, ExceptT.run, StateT.run, name] at run
  split at run
  · next bound isBound =>
    split at run
    · next same =>
      obtain rfl := same
      obtain rfl : before = after := (Prod.mk.inj run).2
      exact ⟨.refl _, isBound⟩
    · cases (Prod.mk.inj run).1
  · next isFree =>
    obtain rfl := (Prod.mk.inj run).2
    exact ⟨⟨fun isBound => NameMap.get?_insert_of_free _ isFree isBound, id⟩, 
      NameMap.get?_insert_self _ _ _⟩

/-- A placeholder that stands for nothing yet can stand for any name. -/
theorem succeeds_name_of_free {placeholder : String} (requested : String) {before : Bindings}
    (isFree : before.names.get? placeholder = none) :
    Succeeds (name placeholder requested) before ()
      { before with names := before.names.insert placeholder requested } := by
  show name placeholder requested before = _
  unfold name
  rw [isFree]

theorem succeeds_value_of_free {placeholder : String} (requested : Value) {before : Bindings}
    (isFree : before.values.get? placeholder = none) :
    Succeeds (value placeholder requested) before ()
      { before with values := before.values.insert placeholder requested } := by
  show value placeholder requested before = _
  unfold value
  rw [isFree]

theorem succeeds_value {placeholder : String} {requested : Value} {before after : Bindings}
    (run : Succeeds (value placeholder requested) before () after) :
    before.Within after ∧ after.values.get? placeholder = some requested := by
  simp only [Succeeds, ExceptT.run, StateT.run, value] at run
  split at run
  · next bound isBound =>
    split at run
    · next same =>
      obtain rfl := same
      obtain rfl : before = after := (Prod.mk.inj run).2
      exact ⟨.refl _, isBound⟩
    · cases (Prod.mk.inj run).1
  · next isFree =>
    obtain rfl := (Prod.mk.inj run).2
    exact ⟨⟨id, fun isBound => NameMap.get?_insert_of_free _ isFree isBound⟩, 
      NameMap.get?_insert_self _ _ _⟩

theorem succeeds_names {α : Type} (placeholder requested : α → String) {elements : List α}
    {before after : Bindings}
    (run : Succeeds (elements.forM fun e => name (placeholder e) (requested e)) before () after) :
    before.Within after ∧
      ∀ element ∈ elements, after.names.get? (placeholder element) = some (requested element) :=
  succeeds_forM (fun e state => state.names.get? (placeholder e) = some (requested e))
    .refl .trans (fun isBound keeps => keeps.names isBound) succeeds_name run

theorem succeeds_values {entries : List (String × Value)} {before after : Bindings}
    (run : Succeeds (entries.forM fun entry => value entry.1 entry.2) before () after) :
    before.Within after ∧ ∀ entry ∈ entries, after.values.get? entry.1 = some entry.2 :=
  succeeds_forM (fun entry state => state.values.get? entry.1 = some entry.2)
    .refl .trans (fun isBound keeps => keeps.values isBound) succeeds_value run

theorem succeeds_all {bindings before after : Bindings}
    (run : Succeeds (all bindings) before () after) :
    before.Within after ∧ bindings.Within after := by
  obtain ⟨⟨⟩, state, namesRun, valuesRun⟩ := succeeds_bind.1 run
  obtain ⟨keepsNames, names⟩ := succeeds_names Prod.fst Prod.snd namesRun
  obtain ⟨keepsValues, values⟩ := succeeds_values valuesRun
  refine ⟨keepsNames.trans keepsValues, ?_, ?_⟩
  · intro placeholder name isBound
    exact keepsValues.names (names _ (NameMap.get?_eq_some_iff.1 isBound))
  · intro placeholder value isBound
    exact values _ (NameMap.get?_eq_some_iff.1 isBound)

/-- An expression taken into a request brings its bindings and keeps its text. -/
theorem succeeds_absorb {expression : Option CompiledExpression} {before after : Bindings}
    {text : Option String} (run : Succeeds (absorb expression) before text after) :
    before.Within after ∧ text = expression.map (·.text) ∧
      ∀ compiled ∈ expression, compiled.bindings.Within after := by
  cases expression with
  | none =>
    obtain ⟨rfl, rfl⟩ := succeeds_pure.1 run
    exact ⟨.refl _, rfl, by simp⟩
  | some expression =>
    obtain ⟨⟨⟩, state, taken, answer⟩ := succeeds_bind.1 run
    obtain ⟨rfl, rfl⟩ := succeeds_pure.1 answer
    obtain ⟨keeps, brings⟩ := succeeds_all taken
    refine ⟨keeps, rfl, ?_⟩
    rintro compiled ⟨⟩
    exact brings

theorem succeeds_absorbCompiled {outcome : Except Error (Option CompiledExpression)}
    {before after : Bindings} {text : Option String}
    (run : Succeeds (absorbCompiled outcome) before text after) :
    ∃ expression, outcome = .ok expression ∧ before.Within after ∧
      text = expression.map (·.text) ∧ ∀ compiled ∈ expression, compiled.bindings.Within after := by
  cases outcome with
  | error error => exact absurd run not_succeeds_throw
  | ok expression => exact ⟨expression, rfl, succeeds_absorb run⟩

theorem collect_of_succeeds {α : Type} {step : Binding α} {result : α} {bindings : Bindings}
    (run : Succeeds step {} result bindings) : collect step = .ok (result, bindings) := by
  have run : step.run.run {} = (.ok result, bindings) := run
  rw [collect, run]

theorem succeeds_of_collect {α : Type} {step : Binding α} {result : α} {bindings : Bindings}
    (run : collect step = .ok (result, bindings)) : Succeeds step {} result bindings := by
  unfold collect at run
  split at run
  · next result' bindings' bound =>
    obtain ⟨rfl, rfl⟩ : result' = result ∧ bindings' = bindings := by simpa using run
    exact bound
  · simp at run

end Binding

namespace ExpressionKind

theorem succeeds_bindPath {kind : ExpressionKind} {path text : String} {before after : Bindings}
    (run : Succeeds (kind.bindPath path) before text after) :
    before.Within after ∧ text = kind.referenceText path ∧
      ∀ reference ∈ kind.references path,
        after.names.get? reference.placeholder = some reference.name := by
  obtain ⟨⟨⟩, state, loop, answer⟩ := succeeds_bind.1 run
  obtain ⟨rfl, rfl⟩ := succeeds_pure.1 answer
  obtain ⟨keeps, bound⟩ := Binding.succeeds_names _ _ loop
  exact ⟨keeps, rfl, bound⟩

theorem succeeds_bindValue {kind : ExpressionKind} {path suffix text : String} {value : Value}
    {before after : Bindings} (run : Succeeds (kind.bindValue path suffix value) before text after) :
    before.Within after ∧ text = kind.valuePlaceholder path suffix ∧
      after.values.get? text = some value := by
  unfold bindValue at run
  split at run
  · exact absurd run (by
      rw [succeeds_bind]
      rintro ⟨_, _, thrown, -⟩
      exact not_succeeds_throw thrown)
  · obtain ⟨⟨⟩, state, bound, answer⟩ := succeeds_bind.1 run
    obtain ⟨rfl, rfl⟩ := succeeds_pure.1 answer
    obtain ⟨keeps, isBound⟩ := Binding.succeeds_value bound
    exact ⟨keeps, rfl, isBound⟩

end ExpressionKind

end SingleTable
