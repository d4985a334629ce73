import SingleTable.Proofs.Condition.Compilation
import SingleTable.Proofs.Expression.Mention

/-!
# Conditions bind what they mention

The expression of a condition binds the placeholders that its text mentions, and no others
(`Condition.accounts_of_compile`); so do key conditions and projections.  A test is drafted as a
reference between two texts, and since no token reaches across their seams, wrapping the reference
in `size` changes nothing about the placeholders.  A draft that is merged brings its bindings if
and only if it brings its text.
-/

namespace SingleTable

open Grammar

/-! ## Steps on drafts -/

namespace Drafting

theorem adds_reference {path : String} {before after : Draft}
    (run : Succeeds (reference path) before () after) :
    ∃ bindings, after = { before with
        before := before.text, last := some (before.kind.referenceText path), after := "", bindings } ∧
      before.bindings.Adds bindings (before.kind.placeholders path) := by
  obtain ⟨text, _, runPath, runPush⟩ := succeeds_bind.1 run
  obtain ⟨_, _, got, runBind⟩ := succeeds_bind.1 runPath
  obtain ⟨rfl, rfl⟩ := succeeds_get.1 got
  obtain ⟨bindings, bound, rfl⟩ := (actsOn_bind _).succeeds_iff.1 runBind
  obtain rfl := succeeds_modify.1 runPush
  obtain ⟨-, rfl, -⟩ := ExpressionKind.succeeds_bindPath bound
  exact ⟨bindings, rfl, ExpressionKind.adds_bindPath bound⟩

section Values

variable {path : String} (plain : Path.IsPlain path)
include plain

theorem adds_bindValue {suffix text : String} (isWord : IsWord suffix) {value : Value}
    {before after : Draft} (run : Succeeds (bindValue path suffix value) before text after) :
    ∃ bindings, after = { before with bindings } ∧ before.bindings.Adds bindings [.value text] ∧
      Mentions text [.value text] := by
  obtain ⟨_, _, got, run⟩ := succeeds_bind.1 run
  obtain ⟨rfl, rfl⟩ := succeeds_get.1 got
  obtain ⟨bindings, bound, rfl⟩ := (actsOn_bind _).succeeds_iff.1 run
  have text_eq := (ExpressionKind.succeeds_bindValue bound).2.1
  refine ⟨bindings, rfl, ExpressionKind.adds_bindValue bound, ?_⟩
  rw [text_eq]
  exact ExpressionKind.mentions_valuePlaceholder plain isWord

theorem adds_bindNumbered {first : Nat} {values : List Value} {placeholders : List String}
    {before after : Draft}
    (run : Succeeds (bindNumbered path first values) before placeholders after) :
    ∃ bindings, after = { before with bindings } ∧
      before.bindings.Adds bindings (placeholders.flatMap fun text => [.value text]) ∧
      ∀ text ∈ placeholders, Mentions text [.value text] := by
  induction values generalizing first placeholders before with
  | nil =>
    obtain ⟨rfl, rfl⟩ := succeeds_pure.1 run
    exact ⟨_, rfl, .refl _, by simp⟩
  | cons value values inductionHypothesis =>
    obtain ⟨text, _, runFirst, runOthers⟩ := succeeds_bind.1 run
    obtain ⟨others, _, runOthers, answer⟩ := succeeds_bind.1 runOthers
    obtain ⟨rfl, rfl⟩ := succeeds_pure.1 answer
    have isWordSuffix : IsWord ("_" ++ first.repr) :=
      IsWord.append (by decide) fun c isMember => isWordChar_of_isDigit (by
        rw [Nat.toList_repr] at isMember
        exact Nat.isDigit_of_mem_toDigits (by decide) (by decide) isMember)
    obtain ⟨middle, rfl, addsFirst, mentionsFirst⟩ := adds_bindValue plain isWordSuffix runFirst
    obtain ⟨bindings, rfl, addsOthers, mentionsOthers⟩ := inductionHypothesis runOthers
    refine ⟨bindings, rfl, addsFirst.trans addsOthers, ?_⟩
    intro other isMember
    rcases List.mem_cons.1 isMember with rfl | isMember
    · exact mentionsFirst
    · exact mentionsOthers other isMember

end Values

end Drafting

/-! ## A single test -/

/-- A reference between two texts that no token of another reference could reach into. -/
structure Draft.Embeds (draft : Draft) (inside outside : List Placeholder) : Prop where
  last : ∃ reference, draft.last = some reference ∧ Mentions reference inside
  before : Mentions draft.before []
  seam : draft.before = "" ∨ Closes draft.before
  after : Mentions draft.after outside
  opens : Opens draft.after
  adds : Bindings.Adds {} draft.bindings (inside ++ outside)

namespace Draft.Embeds

variable {draft : Draft} {inside outside : List Placeholder}

theorem accounts (embeds : draft.Embeds inside outside) :
    draft.bindings.Accounts draft.text [] := by
  obtain ⟨reference, isLast, mentions⟩ := embeds.last
  refine ⟨inside ++ outside, ?_, by simpa using embeds.adds⟩
  have mentionsStart : Mentions (draft.before ++ reference) inside := by
    rcases embeds.seam with noText | closes
    · simpa [noText] using mentions
    · simpa using embeds.before.closed mentions closes
  simpa [Draft.text, isLast] using mentionsStart.followed embeds.after embeds.opens

/-- Wrapping the reference leaves everything around it as it is. -/
theorem size (embeds : draft.Embeds inside outside) :
    { draft with last := draft.last.map fun reference => "size(" ++ reference ++ ")" }.Embeds
      inside outside := by
  obtain ⟨reference, isLast, mentions⟩ := embeds.last
  have mentionsOpen : Mentions "size(" [] := by decide
  have mentionsClose : Mentions ")" [] := by decide
  refine { embeds with last := ⟨"size(" ++ reference ++ ")", by simp [isLast], ?_⟩ }
  exact mentionsOpen.enclosed mentions mentionsClose ⟨'(', "size".toList, rfl, rfl⟩ ⟨')', [], rfl, rfl⟩

end Draft.Embeds

theorem Draft.IsBlank.mentions {draft : Draft} (blank : draft.IsBlank) : Mentions draft.text [] := by
  rw [blank.text]
  exact mentions_nothing

theorem Drafting.embeds_referenceThen {path closing : String} (plain : Path.IsPlain path)
    {before after : Draft} {outside : List Placeholder} (mentionsBefore : Mentions before.text [])
    (seam : before.text = "" ∨ Closes before.text) (mentionsClosing : Mentions closing outside)
    (opens : Opens closing) (adds : Bindings.Adds {} before.bindings outside)
    (run : Succeeds (do Drafting.reference path; modify (·.push closing)) before () after) :
    after.Embeds (before.kind.placeholders path) outside := by
  obtain ⟨⟨⟩, _, runReference, runPush⟩ := succeeds_bind.1 run
  obtain ⟨bindings, rfl, addsPath⟩ := adds_reference runReference
  obtain rfl := succeeds_modify.1 runPush
  refine ⟨⟨_, rfl, ExpressionKind.mentions_referenceText plain⟩, mentionsBefore, seam, ?_, ?_, ?_⟩
  · simpa [Draft.push] using mentionsClosing
  · simpa [Draft.push] using opens
  · exact (adds.trans addsPath).congr fun placeholder => by simp [or_comm]

namespace Condition

section Tests

variable {path : String} (plain : Path.IsPlain path) {before after : Draft}
  (blank : before.IsBlank) (unbound : before.bindings = {})
include plain blank unbound

theorem embeds_compare {comparison : Comparison} {value : Value}
    (run : Succeeds (Drafting.compare path comparison value) before () after) :
    ∃ inside outside, after.Embeds inside outside := by
  obtain ⟨placeholder, _, runValue, runRest⟩ := succeeds_bind.1 run
  obtain ⟨⟨⟩, _, runBlank, runRest⟩ := succeeds_bind.1 runRest
  obtain ⟨bindings, rfl, adds, mentions⟩ := Drafting.adds_bindValue plain (by decide) runValue
  obtain rfl := succeeds_modify.1 runBlank
  have blank := blank.rebind bindings
  rw [blank.pushBlank] at runRest
  have mentionsSymbol : Mentions (" " ++ comparison.symbol ++ " ") [] := by
    cases comparison <;> decide
  have closes : Closes (" " ++ comparison.symbol ++ " ") := .prepend ⟨' ', [], rfl, rfl⟩ _
  have opens : Opens (" " ++ comparison.symbol ++ " " ++ placeholder) :=
    ⟨' ', (comparison.symbol ++ " " ++ placeholder).toList, by simp, rfl⟩
  exact ⟨_, _, Drafting.embeds_referenceThen plain blank.mentions (.inl blank.text)
    (mentionsSymbol.closed mentions closes) opens (unbound ▸ adds) runRest⟩

omit unbound in
/-- A function around the reference, whatever stands between the reference and its end. -/
theorem embeds_called {function : AttributeFunction} {closing : String}
    {outside : List Placeholder} (mentionsClosing : Mentions closing outside) (opens : Opens closing)
    {bindings : Bindings} (adds : Bindings.Adds {} bindings outside)
    (run : Succeeds (do
        modify (·.pushBlank)
        modify (·.push (function.text ++ "("))
        Drafting.reference path
        modify (·.push closing)) { before with bindings } () after) :
    ∃ inside outside, after.Embeds inside outside := by
  have blank := blank.rebind bindings
  obtain ⟨⟨⟩, _, runBlank, runRest⟩ := succeeds_bind.1 run
  obtain rfl := succeeds_modify.1 runBlank
  rw [blank.pushBlank] at runRest
  obtain ⟨⟨⟩, _, runOpen, runRest⟩ := succeeds_bind.1 runRest
  obtain rfl := succeeds_modify.1 runOpen
  have text_eq := blank.text_push (function.text ++ "(")
  have mentionsOpen : Mentions (function.text ++ "(") [] := by cases function <;> decide
  refine ⟨_, _, Drafting.embeds_referenceThen plain ?_ (.inr ?_) mentionsClosing opens adds runRest⟩
  · rwa [text_eq]
  · rw [text_eq]
    exact Frame.closes_call function

theorem embeds_call {function : AttributeFunction} {value : Option Value}
    (run : Succeeds (Drafting.call function path value) before () after) :
    ∃ inside outside, after.Embeds inside outside := by
  cases value with
  | none =>
    obtain ⟨_, _, runNothing, runRest⟩ := succeeds_bind.1 run
    obtain ⟨rfl, rfl⟩ := succeeds_pure.1 runNothing
    have mentionsClose : Mentions ")" [] := by decide
    exact embeds_called plain blank mentionsClose ⟨')', [], rfl, rfl⟩ (unbound ▸ .refl _) runRest
  | some value =>
    obtain ⟨_, _, runValue, runRest⟩ := succeeds_bind.1 run
    obtain ⟨text, _, runValue, runSome⟩ := succeeds_bind.1 runValue
    obtain ⟨rfl, rfl⟩ := succeeds_pure.1 runSome
    obtain ⟨bindings, rfl, adds, mentions⟩ := Drafting.adds_bindValue plain (by decide) runValue
    have mentionsComma : Mentions ", " [] := by decide
    have mentionsClose : Mentions ")" [] := by decide
    have mentionsClosing := mentionsComma.enclosed mentions mentionsClose ⟨' ', [','], rfl, rfl⟩
      ⟨')', [], rfl, rfl⟩
    have opens : Opens (", " ++ text ++ ")") := ⟨',', (" " ++ text ++ ")").toList, by simp, rfl⟩
    exact embeds_called plain blank mentionsClosing opens (unbound ▸ adds) runRest

theorem embeds_between {values : List Value}
    (run : Succeeds (Drafting.between path values) before () after) :
    ∃ inside outside, after.Embeds inside outside := by
  unfold Drafting.between at run
  split at run
  · obtain ⟨low, _, runLow, runRest⟩ := succeeds_bind.1 run
    obtain ⟨high, _, runHigh, runRest⟩ := succeeds_bind.1 runRest
    obtain ⟨⟨⟩, _, runBlank, runRest⟩ := succeeds_bind.1 runRest
    obtain ⟨middle, rfl, addsLow, mentionsLow⟩ := Drafting.adds_bindValue plain (by decide) runLow
    obtain ⟨bindings, rfl, addsHigh, mentionsHigh⟩ :=
      Drafting.adds_bindValue plain (by decide) runHigh
    obtain rfl := succeeds_modify.1 runBlank
    have blank := blank.rebind bindings
    rw [blank.pushBlank] at runRest
    have mentionsBetween : Mentions " BETWEEN " [] := by decide
    have mentionsAnd : Mentions " AND " [] := by decide
    have mentionsClosing := (mentionsBetween.closed mentionsLow
      ⟨' ', " BETWEEN".toList, rfl, rfl⟩).joined mentionsAnd mentionsHigh
      ⟨' ', "AND ".toList, rfl, rfl⟩ ⟨' ', " AND".toList, rfl, rfl⟩
    have opens : Opens (" BETWEEN " ++ low ++ " AND " ++ high) :=
      ⟨' ', ("BETWEEN " ++ low ++ " AND " ++ high).toList, by simp, rfl⟩
    have adds := addsLow.trans addsHigh
    rw [unbound] at adds
    exact ⟨_, _, Drafting.embeds_referenceThen plain blank.mentions (.inl blank.text) mentionsClosing
      opens adds runRest⟩
  · exact absurd run not_succeeds_throw

theorem embeds_inList {values : List Value}
    (run : Succeeds (Drafting.inList path values) before () after) :
    ∃ inside outside, after.Embeds inside outside := by
  unfold Drafting.inList at run
  cases values with
  | nil =>
    obtain ⟨_, _, thrown, -⟩ := succeeds_bind.1 run
    exact absurd thrown not_succeeds_throw
  | cons value values =>
    obtain ⟨placeholders, _, runValues, runRest⟩ := succeeds_bind.1 run
    obtain ⟨⟨⟩, _, runBlank, runRest⟩ := succeeds_bind.1 runRest
    obtain ⟨bindings, rfl, adds, mentions⟩ := Drafting.adds_bindNumbered plain runValues
    obtain rfl := succeeds_modify.1 runBlank
    have blank := blank.rebind bindings
    rw [blank.pushBlank] at runRest
    have mentionsIn : Mentions " IN (" [] := by decide
    have mentionsComma : Mentions ", " [] := by decide
    have mentionsClose : Mentions ")" [] := by decide
    have mentionsList := mentionsComma.intercalate ⟨',', [' '], rfl, rfl⟩ ⟨' ', [','], rfl, rfl⟩
      id (fun text => [.value text]) mentions
    rw [List.map_id] at mentionsList
    have mentionsClosing := mentionsIn.enclosed mentionsList mentionsClose
      ⟨'(', " IN ".toList, rfl, rfl⟩ ⟨')', [], rfl, rfl⟩
    have opens : Opens (" IN (" ++ ", ".intercalate placeholders ++ ")") :=
      ⟨' ', ("IN (" ++ ", ".intercalate placeholders ++ ")").toList, by simp, rfl⟩
    exact ⟨_, _, Drafting.embeds_referenceThen plain blank.mentions (.inl blank.text) mentionsClosing
      opens (unbound ▸ adds) runRest⟩

theorem embeds_draftTest {test : AttributeTest}
    (run : Succeeds (draftTest path test) before () after) :
    ∃ inside outside, after.Embeds inside outside := by
  -- on the test: a size wraps the reference of the test inside
  induction test generalizing after with
  | compare comparison value => exact embeds_compare plain blank unbound run
  | beginsWith value | contains value | hasType value | present | absent =>
    exact embeds_call plain blank unbound run
  | between values => exact embeds_between plain blank unbound run
  | inList values => exact embeds_inList plain blank unbound run
  | size test inductionHypothesis =>
    obtain ⟨⟨⟩, _, runTest, runSize⟩ := succeeds_bind.1 run
    obtain ⟨inside, outside, embeds⟩ := inductionHypothesis runTest
    obtain rfl := succeeds_modify.1 runSize
    exact ⟨inside, outside, embeds.size⟩

end Tests

/-- A test that is drafted alone binds what its text mentions. -/
theorem accounts_draftTest {kind : ExpressionKind} {path : String} (test : AttributeTest)
    {draft : Draft} (plain : Path.IsPlain path)
    (built : Drafting.build kind (draftTest path test) = .ok draft) :
    draft.bindings.Accounts draft.text [] := by
  have blank : Draft.IsBlank { kind } := ⟨rfl, rfl, rfl⟩
  obtain ⟨inside, outside, embeds⟩ := embeds_draftTest plain blank rfl
    (Drafting.succeeds_of_build built)
  exact embeds.accounts

end Condition

/-! ## Joined conditions -/

namespace Drafting

/-- An empty text mentions nothing. -/
theorem nothing_of_isEmpty {draft : Draft} (isEmpty : draft.isEmpty = true)
    {mentioned : List Placeholder} (mentions : Mentions draft.text mentioned) : mentioned = [] := by
  have noText : draft.text = "" := by simpa [Draft.isEmpty] using isEmpty
  rw [noText] at mentions
  exact (Option.some.inj mentions).symm

theorem accounts_negate {draft : Draft} (accounts : draft.bindings.Accounts draft.text []) :
    (negate.run.run draft).2.bindings.Accounts (negate.run.run draft).2.text [] := by
  have negated : (negate.run.run draft).2 =
      if draft.isEmpty then draft else draft.withText ("NOT (" ++ draft.text ++ ")") := rfl
  rw [negated]
  split
  · exact accounts
  · obtain ⟨mentioned, mentions, adds⟩ := accounts
    have mentionsOpen : Mentions "NOT (" [] := by decide
    have mentionsClose : Mentions ")" [] := by decide
    have mentionsAll := mentionsOpen.enclosed mentions mentionsClose
      ⟨'(', "NOT ".toList, rfl, rfl⟩ ⟨')', [], rfl, rfl⟩
    exact ⟨mentioned, by simpa [Draft.withText, Draft.text] using mentionsAll, adds⟩

theorem mentions_joined (connective : Connective) {first second : String}
    {inFirst inSecond : List Placeholder} (mentionsFirst : Mentions first inFirst)
    (mentionsSecond : Mentions second inSecond) :
    Mentions ("(" ++ first ++ ") " ++ connective.text ++ " (" ++ second ++ ")")
      (inFirst ++ inSecond) := by
  have mentionsOpen : Mentions "(" [] := by decide
  have mentionsMark : Mentions (") " ++ connective.text ++ " (") [] := by cases connective <;> decide
  have mentionsClose : Mentions ")" [] := by decide
  have opens : Opens (") " ++ connective.text ++ " (") :=
    ⟨')', (" " ++ connective.text ++ " (").toList, by simp, rfl⟩
  have closes : Closes (") " ++ connective.text ++ " (") := .prepend ⟨'(', [' '], rfl, rfl⟩ _
  have mentionsBoth := mentionsFirst.joined mentionsMark mentionsSecond opens closes
  have mentionsAll := mentionsOpen.enclosed mentionsBoth mentionsClose ⟨'(', [], rfl, rfl⟩
    ⟨')', [], rfl, rfl⟩
  simpa only [String.append_assoc] using mentionsAll

/-- A draft brings its bindings along with its text, and without a text it brings nothing. -/
theorem accounts_merge {other before after : Draft} {connective : Connective}
    (accountsOther : other.bindings.Accounts other.text [])
    (accounts : before.bindings.Accounts before.text [])
    (run : Succeeds (merge other connective) before () after) :
    after.bindings.Accounts after.text [] := by
  unfold merge at run
  split at run
  · -- what is merged has no text, and its bindings are left behind with it
    obtain ⟨-, rfl⟩ := succeeds_pure.1 run
    exact accounts
  · obtain ⟨⟨⟩, _, runBind, runText⟩ := succeeds_bind.1 run
    obtain ⟨bindings, bound, rfl⟩ := (actsOn_bind _).succeeds_iff.1 runBind
    obtain rfl := succeeds_modify.1 runText
    obtain ⟨inOther, mentionsOther, addsOther⟩ := accountsOther
    obtain ⟨inBefore, mentions, adds⟩ := accounts
    rw [List.append_nil] at adds addsOther
    have addsBoth := adds.trans (Binding.adds_all addsOther bound)
    rw [← List.append_nil (inBefore ++ inOther)] at addsBoth
    refine ⟨inBefore ++ inOther, ?_, addsBoth⟩
    split
    · next isEmpty =>
      obtain rfl : inBefore = [] := nothing_of_isEmpty isEmpty mentions
      simpa [Draft.withText, Draft.text] using mentionsOther
    · simpa [Draft.withText, Draft.text] using mentions_joined connective mentions mentionsOther

theorem accounts_mergeMany {others : List Draft} {connective : Connective} {before after : Draft}
    (accountOthers : ∀ other ∈ others, other.bindings.Accounts other.text [])
    (accounts : before.bindings.Accounts before.text [])
    (run : Succeeds (mergeMany others connective) before () after) :
    after.bindings.Accounts after.text [] := by
  induction others generalizing before with
  | nil =>
    obtain ⟨-, rfl⟩ := succeeds_pure.1 run
    exact accounts
  | cons other others inductionHypothesis =>
    obtain ⟨⟨⟩, _, runFirst, runOthers⟩ := succeeds_bind.1 run
    exact inductionHypothesis (fun other isMember => accountOthers other (by simp [isMember]))
      (accounts_merge (accountOthers other (by simp)) accounts runFirst) runOthers

theorem accounts_blank (kind : ExpressionKind) :
    Bindings.Accounts (Draft.mk kind "" none "" {}).bindings (Draft.mk kind "" none "" {}).text [] :=
  ⟨[], mentions_nothing, .refl _⟩

end Drafting

namespace Condition

mutual

theorem accounts_draft {kind : ExpressionKind} : ∀ {condition : Condition} {draft : Draft},
    (∀ path ∈ condition.paths, Path.IsPlain path) → condition.draft kind = .ok draft →
      draft.bindings.Accounts draft.text []
  | .test path attributeTest, draft, plain, drafted =>
    accounts_draftTest attributeTest (plain path (by simp [paths])) drafted
  | .all conditions, draft, plain, drafted => by
    obtain ⟨parts, areDrafted, built⟩ := bind_eq_ok.1 drafted
    exact Drafting.accounts_mergeMany (account_draftAll plain areDrafted)
      (Drafting.accounts_blank kind) (Drafting.succeeds_of_build built)
  | .any conditions, draft, plain, drafted => by
    obtain ⟨parts, areDrafted, built⟩ := bind_eq_ok.1 drafted
    exact Drafting.accounts_mergeMany (account_draftAll plain areDrafted)
      (Drafting.accounts_blank kind) (Drafting.succeeds_of_build built)
  | .not condition, draft, plain, drafted => by
    obtain ⟨inner, isDrafted, negated⟩ := bind_eq_ok.1 drafted
    obtain rfl := Except.ok.inj negated
    have plainInner : ∀ path ∈ condition.paths, Path.IsPlain path := plain
    exact Drafting.accounts_negate (accounts_draft plainInner isDrafted)

theorem account_draftAll {kind : ExpressionKind} :
    ∀ {conditions : List Condition} {drafts : List Draft},
    (∀ path ∈ allPaths conditions, Path.IsPlain path) → draftAll kind conditions = .ok drafts →
      ∀ draft ∈ drafts, draft.bindings.Accounts draft.text []
  | [], drafts, plain, drafted => by
    obtain rfl := Except.ok.inj drafted
    simp
  | condition :: conditions, drafts, plain, drafted => by
    obtain ⟨first, isDrafted, rest⟩ := bind_eq_ok.1 drafted
    obtain ⟨others, areDrafted, answer⟩ := bind_eq_ok.1 rest
    obtain rfl := Except.ok.inj answer
    have accounts := accounts_draft (fun path isMember => plain path (by simp [allPaths, isMember]))
      isDrafted
    have account := account_draftAll (fun path isMember => plain path (by simp [allPaths, isMember]))
      areDrafted
    intro draft isMember
    rcases List.mem_cons.1 isMember with rfl | isMember
    · exact accounts
    · exact account draft isMember

end

end Condition

/-! ## Compiled expressions -/

/-- A draft is compiled as it stands. -/
theorem Draft.accounts_compiled {draft : Draft} (accounts : draft.bindings.Accounts draft.text [])
    {expression : CompiledExpression} (compiled : draft.compiled? = some expression) :
    expression.bindings.Accounts expression.text [] := by
  unfold Draft.compiled? at compiled
  split at compiled
  · cases compiled
  · obtain rfl := Option.some.inj compiled
    exact accounts

/-- The expression of a condition binds what its text mentions. -/
theorem Condition.accounts_of_compile {kind : ExpressionKind} {condition : Condition}
    {expression : CompiledExpression} (plain : ∀ path ∈ condition.paths, Path.IsPlain path)
    (compiles : condition.compile kind = .ok (some expression)) :
    expression.bindings.Accounts expression.text [] := by
  obtain ⟨draft, drafted, compiled⟩ := compile_eq_ok compiles
  exact Draft.accounts_compiled (accounts_draft plain drafted) compiled

theorem KeyCondition.accounts_of_compile {condition : KeyCondition}
    {expression : CompiledExpression} (plain : ∀ path ∈ condition.paths, Path.IsPlain path)
    (compiles : condition.compile = .ok (some expression)) :
    expression.bindings.Accounts expression.text [] := by
  obtain ⟨draft, drafted, compiled⟩ := map_eq_ok.1 compiles
  refine Draft.accounts_compiled ?_ compiled
  obtain ⟨partitionKey, partition, sort⟩ := condition
  have plainPartition : Path.IsPlain partitionKey := plain _ (by simp [paths])
  cases sort with
  | none => exact Condition.accounts_draftTest (.compare .equal partition) plainPartition drafted
  | some asked =>
    obtain ⟨first, isFirst, rest⟩ := bind_eq_ok.1 drafted
    obtain ⟨second, isSecond, rest⟩ := bind_eq_ok.1 rest
    split at rest
    · next joined run =>
      obtain rfl := Except.ok.inj rest
      have accountsFirst :=
        Condition.accounts_draftTest (.compare .equal partition) plainPartition isFirst
      have accountsSecond :=
        Condition.accounts_draftTest _ (plain asked.1 (by simp [paths])) isSecond
      exact Drafting.accounts_merge accountsSecond accountsFirst run
    · cases rest

/-- The references to some paths, bound one after another. -/
theorem Drafting.adds_bindPaths {paths references : List String} {before after : Draft}
    (run : Succeeds (paths.mapM bindPath) before references after) :
    ∃ bindings, after = { before with bindings } ∧
      references = paths.map before.kind.referenceText ∧
      before.bindings.Adds bindings (paths.flatMap before.kind.placeholders) := by
  induction paths generalizing before references with
  | nil =>
    obtain ⟨rfl, rfl⟩ := succeeds_pure.1 run
    exact ⟨_, rfl, rfl, .refl _⟩
  | cons path paths inductionHypothesis =>
    rw [List.mapM_cons] at run
    obtain ⟨reference, _, runFirst, runRest⟩ := succeeds_bind.1 run
    obtain ⟨others, _, runOthers, answer⟩ := succeeds_bind.1 runRest
    obtain ⟨rfl, rfl⟩ := succeeds_pure.1 answer
    obtain ⟨_, _, got, runBind⟩ := succeeds_bind.1 runFirst
    obtain ⟨rfl, rfl⟩ := succeeds_get.1 got
    obtain ⟨middle, bound, rfl⟩ := (actsOn_bind _).succeeds_iff.1 runBind
    obtain ⟨-, rfl, -⟩ := ExpressionKind.succeeds_bindPath bound
    obtain ⟨bindings, rfl, rfl, addsOthers⟩ := inductionHypothesis runOthers
    exact ⟨bindings, rfl, rfl, (ExpressionKind.adds_bindPath bound).trans addsOthers⟩

theorem Projection.accounts_of_compile {paths : List String} {expression : CompiledExpression}
    (plain : ∀ path ∈ paths, Path.IsPlain path)
    (compiles : Projection.compile paths = .ok (some expression)) :
    expression.bindings.Accounts expression.text [] := by
  obtain ⟨draft, drafted, compiled⟩ := map_eq_ok.1 compiles
  refine Draft.accounts_compiled ?_ compiled
  obtain ⟨references, _, runPaths, runText⟩ := succeeds_bind.1 (Drafting.succeeds_of_build drafted)
  obtain ⟨bindings, rfl, rfl, adds⟩ := Drafting.adds_bindPaths runPaths
  obtain rfl := succeeds_modify.1 runText
  have mentionsComma : Mentions ", " [] := by decide
  have mentionsAll := mentionsComma.intercalate ⟨',', [' '], rfl, rfl⟩ ⟨' ', [','], rfl, rfl⟩
    (ExpressionKind.referenceText .projection) (ExpressionKind.placeholders .projection)
    fun path isMember => ExpressionKind.mentions_referenceText (plain path isMember)
  exact ⟨_, by simpa [Draft.withText, Draft.text] using mentionsAll,
    by simpa [Draft.withText] using adds⟩

end SingleTable
