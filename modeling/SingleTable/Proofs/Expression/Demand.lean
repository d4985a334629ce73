import SingleTable.Proofs.Expression.Bindings

/-!
# What is asked of placeholders

A step that binds a placeholder demands that it stand for something, and fails if it stands for
something else already.  In which order demands are made does not count: a computation that only
binds succeeds if there are bindings that grant what was granted before and what is demanded, and
nothing else (`Bindings.Gains`), and then it leaves these bindings (`Binding.Demands`).  There are
such bindings unless two demands conflict (`Bindings.exists_gains_iff`).
-/

namespace SingleTable

/-! ## Demands -/

/-- That a placeholder stand for something. -/
inductive Demand where
  | name (placeholder requested : String)
  | value (placeholder : String) (requested : Value)
  deriving DecidableEq

/-- Two demands about one placeholder that ask for different things. -/
inductive Demand.Conflict : Demand → Demand → Prop where
  | name {placeholder first second : String} (differ : first ≠ second) :
      Conflict (.name placeholder first) (.name placeholder second)
  | value {placeholder : String} {first second : Value} (differ : first ≠ second) :
      Conflict (.value placeholder first) (.value placeholder second)

def Demand.step : Demand → Binding Unit
  | .name placeholder requested => Binding.name placeholder requested
  | .value placeholder requested => Binding.value placeholder requested

namespace Bindings

variable {bindings before middle after : Bindings} {asked others : List Demand}

def Grants (bindings : Bindings) : Demand → Prop
  | .name placeholder requested => bindings.names.get? placeholder = some requested
  | .value placeholder requested => bindings.values.get? placeholder = some requested

@[simp] theorem not_grants_empty (demand : Demand) : ¬ Grants {} demand := by
  cases demand <;> simp [Grants]

/-- Bindings that grant the same are the same. -/
theorem ext_grants {first second : Bindings}
    (same : ∀ demand, first.Grants demand ↔ second.Grants demand) : first = second := by
  have names_eq : first.names = second.names :=
    NameMap.ext_get? fun placeholder => Option.ext fun requested => same (.name placeholder requested)
  have values_eq : first.values = second.values :=
    NameMap.ext_get? fun placeholder => Option.ext fun requested => same (.value placeholder requested)
  cases first
  cases second
  simp_all only

theorem Grants.not_conflict {first second : Demand} (one : bindings.Grants first)
    (two : bindings.Grants second) : ¬ first.Conflict second := by
  intro conflict
  cases conflict with
  | name differ => exact differ (Option.some.inj (one.symm.trans two))
  | value differ => exact differ (Option.some.inj (one.symm.trans two))

theorem Within.grants (within : before.Within after) {demand : Demand}
    (granted : before.Grants demand) : after.Grants demand := by
  cases demand with
  | name placeholder requested => exact within.names granted
  | value placeholder requested => exact within.values granted

/-- What is granted after is what was granted before and what is demanded. -/
def Gains (before : Bindings) (asked : List Demand) (after : Bindings) : Prop :=
  ∀ demand, after.Grants demand ↔ before.Grants demand ∨ demand ∈ asked

theorem Gains.unique {other : Bindings} (gains : before.Gains asked after)
    (gainsOther : before.Gains asked other) : after = other :=
  ext_grants fun demand => (gains demand).trans (gainsOther demand).symm

theorem gains_nil : before.Gains [] after ↔ after = before := by
  constructor
  · intro gains
    exact ext_grants fun demand => by simpa using gains demand
  · rintro rfl demand
    simp

/-- Only which demands are made counts. -/
theorem gains_congr (same : ∀ demand, demand ∈ asked ↔ demand ∈ others) :
    before.Gains asked after ↔ before.Gains others after :=
  forall_congr' fun demand => by rw [same]

theorem Gains.append (gains : before.Gains asked middle) (gainsOthers : middle.Gains others after) :
    before.Gains (asked ++ others) after := by
  intro demand
  rw [gainsOthers, gains, List.mem_append, or_assoc]

/-! ## One demand -/

/-- Adding a demand that is granted already changes nothing. -/
theorem gains_of_grants {demand : Demand} (granted : before.Grants demand) :
    before.Gains [demand] before := by
  intro other
  rw [List.mem_singleton]
  exact ⟨.inl, fun known => known.elim id fun same => same ▸ granted⟩

/-- A demand is met unless something else is granted. -/
theorem exists_step {demand : Demand}
    (agrees : ∀ other, before.Grants other → ¬ demand.Conflict other) :
    ∃ after, Succeeds demand.step before () after ∧ before.Gains [demand] after := by
  cases demand with
  | name placeholder requested =>
    cases bound_eq : before.names.get? placeholder with
    | none =>
      refine ⟨_, Binding.succeeds_name_of_free requested bound_eq, fun other => ?_⟩
      rw [List.mem_singleton]
      cases other with
      | name text wanted => grind [Grants, NameMap.get?_insert]
      | value text wanted => simp [Grants]
    | some bound =>
      have same : requested = bound := Decidable.byContradiction fun differ =>
        agrees (.name placeholder bound) bound_eq (.name differ)
      subst same
      refine ⟨before, ?_, gains_of_grants bound_eq⟩
      show Binding.name placeholder requested before = _
      unfold Binding.name
      rw [bound_eq]
      exact if_pos rfl
  | value placeholder requested =>
    cases bound_eq : before.values.get? placeholder with
    | none =>
      refine ⟨_, Binding.succeeds_value_of_free requested bound_eq, fun other => ?_⟩
      rw [List.mem_singleton]
      cases other with
      | name text wanted => simp [Grants]
      | value text wanted => grind [Grants, NameMap.get?_insert]
    | some bound =>
      have same : requested = bound := Decidable.byContradiction fun differ =>
        agrees (.value placeholder bound) bound_eq (.value differ)
      subst same
      refine ⟨before, ?_, gains_of_grants bound_eq⟩
      show Binding.value placeholder requested before = _
      unfold Binding.value
      rw [bound_eq]
      exact if_pos rfl

/-- A demand that is met agrees with what was granted before. -/
theorem agrees_of_step {demand : Demand} (run : Succeeds demand.step before () after) {other : Demand}
    (granted : before.Grants other) : ¬ demand.Conflict other := by
  cases demand with
  | name placeholder requested =>
    obtain ⟨within, isBound⟩ := Binding.succeeds_name run
    have met : after.Grants (.name placeholder requested) := isBound
    exact met.not_conflict (within.grants granted)
  | value placeholder requested =>
    obtain ⟨within, isBound⟩ := Binding.succeeds_value run
    have met : after.Grants (.value placeholder requested) := isBound
    exact met.not_conflict (within.grants granted)

theorem succeeds_step_iff {demand : Demand} :
    Succeeds demand.step before () after ↔ before.Gains [demand] after := by
  constructor
  · intro run
    obtain ⟨other, runOther, gains⟩ := exists_step fun _ granted => agrees_of_step run granted
    obtain rfl : after = other := (Prod.mk.inj (run.symm.trans runOther)).2
    exact gains
  · intro gains
    have met : after.Grants demand := (gains demand).2 (.inr (by simp))
    obtain ⟨other, run, gainsOther⟩ := exists_step fun other granted =>
      met.not_conflict ((gains other).2 (.inl granted))
    exact gains.unique gainsOther ▸ run

/-! ## Several demands -/

/-- Demands can be granted unless one of them conflicts with another or with what is granted. -/
theorem exists_gains_iff : (∃ after, before.Gains asked after) ↔
    ∀ demand ∈ asked, ∀ other, before.Grants other ∨ other ∈ asked → ¬ demand.Conflict other := by
  constructor
  · rintro ⟨after, gains⟩ demand isAsked other isKnown
    exact Grants.not_conflict ((gains demand).2 (.inr isAsked)) ((gains other).2 isKnown)
  · intro agree
    induction asked generalizing before with
    | nil => exact ⟨before, gains_nil.2 rfl⟩
    | cons demand asked inductionHypothesis =>
      obtain ⟨middle, -, gains⟩ := exists_step fun other granted =>
        agree demand (by simp) other (.inl granted)
      -- what the first demand adds is among what the later ones agree with
      have agreeLater : ∀ later ∈ asked, ∀ other, middle.Grants other ∨ other ∈ asked →
          ¬ later.Conflict other := by
        intro later isLater other isKnown
        rw [gains other, List.mem_singleton, or_assoc, ← List.mem_cons] at isKnown
        exact agree later (by simp [isLater]) other isKnown
      obtain ⟨after, gainsLater⟩ := inductionHypothesis agreeLater
      exact ⟨after, gains.append gainsLater⟩

/-- Demands that are granted together are granted one part after the other. -/
theorem gains_append_iff : before.Gains (asked ++ others) after ↔
    ∃ middle, before.Gains asked middle ∧ middle.Gains others after := by
  constructor
  · intro gains
    obtain ⟨middle, gainsFirst⟩ : ∃ middle, before.Gains asked middle := by
      refine exists_gains_iff.2 fun demand isAsked other isKnown => ?_
      refine exists_gains_iff.1 ⟨after, gains⟩ demand (by simp [isAsked]) other ?_
      exact isKnown.imp_right fun isAsked => by simp [isAsked]
    refine ⟨middle, gainsFirst, fun demand => ?_⟩
    rw [gains, gainsFirst, List.mem_append, or_assoc]
  · rintro ⟨middle, gains, gainsOthers⟩
    exact gains.append gainsOthers

/-- Demands that are granted with others are granted alone. -/
theorem exists_gains_of_subset (gains : before.Gains others after) (subset : asked ⊆ others) :
    ∃ after, Gains {} asked after := by
  refine exists_gains_iff.2 fun demand isAsked other isKnown => ?_
  have isAskedOther : other ∈ asked := by simpa using isKnown
  exact exists_gains_iff.1 ⟨after, gains⟩ demand (subset isAsked) other (.inr (subset isAskedOther))

def demands (bindings : Bindings) : List Demand :=
  (bindings.names.entries.map fun (placeholder, requested) => .name placeholder requested)
    ++ bindings.values.entries.map fun (placeholder, requested) => .value placeholder requested

theorem mem_demands {demand : Demand} : demand ∈ bindings.demands ↔ bindings.Grants demand := by
  cases demand with
  | name placeholder requested => simp [demands, Grants, NameMap.get?_eq_some_iff]
  | value placeholder requested => simp [demands, Grants, NameMap.get?_eq_some_iff]

/-- What starts from nothing grants exactly what is demanded. -/
theorem Gains.mem_demands_iff (gains : Gains {} asked bindings) (demand : Demand) :
    demand ∈ bindings.demands ↔ demand ∈ asked := by
  rw [mem_demands, gains]
  simp

end Bindings

/-! ## Computations that only bind -/

namespace Binding

/-- A computation succeeds with a result where its demands can be granted, and leaves them granted. -/
def Demands {α : Type} (step : Binding α) (result : α) (asked : List Demand) : Prop :=
  ∀ before answer after, Succeeds step before answer after ↔
    answer = result ∧ before.Gains asked after

variable {α β : Type} {asked others : List Demand}

theorem demands_pure (result : α) : Demands (pure result) result [] := by
  intro before answer after
  rw [succeeds_pure, Bindings.gains_nil]

theorem Demands.bind {step : Binding α} {next : α → Binding β} {middle : α} {result : β}
    (first : Demands step middle asked) (second : Demands (next middle) result others) :
    Demands (step >>= next) result (asked ++ others) := by
  intro before answer after
  rw [succeeds_bind, Bindings.gains_append_iff]
  constructor
  · rintro ⟨_, state, runFirst, runSecond⟩
    obtain ⟨rfl, gains⟩ := (first _ _ _).1 runFirst
    obtain ⟨rfl, gainsOthers⟩ := (second _ _ _).1 runSecond
    exact ⟨rfl, state, gains, gainsOthers⟩
  · rintro ⟨rfl, state, gains, gainsOthers⟩
    exact ⟨middle, state, (first _ _ _).2 ⟨rfl, gains⟩, (second _ _ _).2 ⟨rfl, gainsOthers⟩⟩

theorem Demands.andThen {step : Binding PUnit} {next : Binding β} {result : β}
    (first : Demands step ⟨⟩ asked) (second : Demands next result others) :
    Demands (do step; next) result (asked ++ others) :=
  first.bind second

theorem Demands.congr {step : Binding α} {result : α} (demands : Demands step result asked)
    (same : ∀ demand, demand ∈ asked ↔ demand ∈ others) : Demands step result others := by
  intro before answer after
  rw [demands, Bindings.gains_congr same]

theorem demands_step (demand : Demand) : Demands demand.step () [demand] := by
  intro before answer after
  rw [eq_self_iff_true, true_and]
  exact Bindings.succeeds_step_iff

/-- A loop that meets a demand for each element. -/
theorem demands_forM (demand : α → Demand) (elements : List α) :
    Demands (elements.forM fun element => (demand element).step) ⟨⟩ (elements.map demand) := by
  induction elements with
  | nil => exact demands_pure _
  | cons element elements inductionHypothesis =>
    exact (demands_step (demand element)).bind inductionHypothesis

/-- Taking bindings over demands all that they grant, in whatever order their entries come. -/
theorem demands_entries {bindings : Bindings} {names : List (String × String)}
    {values : List (String × Value)} (sameNames : names.Perm bindings.names.entries)
    (sameValues : values.Perm bindings.values.entries) :
    Demands (do
        names.forM fun (placeholder, requested) => name placeholder requested
        values.forM fun (placeholder, requested) => value placeholder requested)
      ⟨⟩ bindings.demands := by
  have namesFirst := (demands_forM (fun entry => .name entry.1 entry.2) names).andThen
    (demands_forM (fun entry => .value entry.1 entry.2) values)
  refine namesFirst.congr fun demand => ?_
  rw [List.mem_append, Bindings.demands, List.mem_append,
    (sameNames.map fun entry => Demand.name entry.1 entry.2).mem_iff,
    (sameValues.map fun entry => Demand.value entry.1 entry.2).mem_iff]

theorem demands_all (bindings : Bindings) : Demands (all bindings) ⟨⟩ bindings.demands :=
  demands_entries (.refl _) (.refl _)

end Binding

/-! ## Paths and values -/

namespace ExpressionKind

variable (kind : ExpressionKind) (path : String)

def pathDemands : List Demand :=
  (kind.references path).map fun reference => .name reference.placeholder reference.name

theorem demands_bindPath :
    Binding.Demands (kind.bindPath path) (kind.referenceText path) (kind.pathDemands path) := by
  have demands := (Binding.demands_forM
    (fun reference : Reference => .name reference.placeholder reference.name)
    (kind.references path)).andThen (Binding.demands_pure (kind.referenceText path))
  rwa [List.append_nil] at demands

theorem demands_bindValue (notProjection : kind ≠ .projection) (suffix : String) (value : Value) :
    Binding.Demands (kind.bindValue path suffix value) (kind.valuePlaceholder path suffix)
      [.value (kind.valuePlaceholder path suffix) value] := by
  have demands := (Binding.demands_step (.value (kind.valuePlaceholder path suffix) value)).andThen
    (Binding.demands_pure (kind.valuePlaceholder path suffix))
  unfold bindValue
  rw [if_neg notProjection]
  exact demands

end ExpressionKind

end SingleTable
