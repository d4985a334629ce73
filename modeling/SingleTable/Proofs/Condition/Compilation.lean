import SingleTable.Proofs.Condition.Frame

/-!
# Conditions are read back as they were meant

The text of a draft is read back as the meaning of the condition it was drafted from
(`Condition.read_compile`).  This needs no knowledge of how placeholders are chosen: every step
that binds one checks it against the bindings made before, so what a part of the text stood for
when it was written it still stands for in the end.
-/

namespace SingleTable

open Grammar

namespace Draft

theorem Frames.expresses {draft : Draft} {frame : Frame} {wraps : Nat} {path : String}
    {test : AttributeTest} (frames : draft.Frames frame wraps path test) :
    draft.Expresses (Condition.test path test).meaning := by
  obtain ⟨reference, operand, isLast, lexes, resolved⟩ := frames.last
  have lexesAll := frames.holds.lexes lexes
  have resolvedAll := frames.holds.resolve resolved
  rw [Condition.meaning, frames.predicate_eq]
  refine ⟨.test (frame.written operand), ?_, ?_⟩
  · simpa only [Draft.text, isLast, frames.before, frames.after, Option.getD_some,
      Formula.tokens] using lexesAll
  · simp only [Formula.resolve, resolvedAll, Option.map_some]

variable {draft : Draft} {meaning : Option (Formula (Predicate (List PathSegment) Value))}

/-- A draft is empty exactly if it has no meaning. -/
theorem Expresses.isEmpty_eq (expresses : draft.Expresses meaning) :
    draft.isEmpty = meaning.isNone := by
  cases meaning with
  | none =>
    have text_eq : draft.text = "" := expresses
    simp [Draft.isEmpty, text_eq]
  | some meaning =>
    obtain ⟨written, lexes, -⟩ := expresses
    have nonempty : draft.text ≠ "" := by
      intro text_eq
      rw [text_eq] at lexes
      have noTokens : written.tokens = [] := (Option.some.inj lexes).symm
      have depth_pos : 0 < written.depth := by cases written <;> simp [Formula.depth]
      have depth_le := written.depth_le
      rw [noTokens] at depth_le
      exact absurd depth_pos (by simpa using depth_le)
    simpa [Draft.isEmpty] using nonempty

/-- A draft with a meaning is compiled to an expression that is read as that meaning. -/
theorem Expresses.read {meaning : Formula (Predicate (List PathSegment) Value)}
    (expresses : draft.Expresses (some meaning)) :
    ∃ expression, draft.compiled? = some expression ∧
      readCondition expression.text expression.bindings = some meaning := by
  have nonempty : draft.isEmpty = false := expresses.isEmpty_eq
  refine ⟨⟨draft.text, draft.bindings⟩, ?_, ?_⟩
  · rw [Draft.compiled?, nonempty]
    rfl
  · obtain ⟨written, lexes, resolved⟩ := expresses
    have lexed : tokens? draft.text = some written.tokens := lexes
    simp only [readCondition, lexed, parseFormula_tokens, Option.bind_eq_bind, Option.bind_some,
      resolved]

theorem Expresses.rebind (expresses : draft.Expresses meaning) {bindings : Bindings}
    (within : draft.bindings.Within bindings) :
    { draft with bindings }.Expresses meaning := by
  cases meaning with
  | none => exact expresses
  | some meaning =>
    obtain ⟨written, lexes, resolved⟩ := expresses
    exact ⟨written, lexes, Formula.resolve_within within resolved⟩

end Draft

namespace Drafting

theorem expresses_negate {draft : Draft}
    {meaning : Option (Formula (Predicate (List PathSegment) Value))}
    (expresses : draft.Expresses meaning) :
    (negate.run.run draft).2.Expresses (meaning.map .not) := by
  have negated : (negate.run.run draft).2 =
      if draft.isEmpty then draft else draft.withText ("NOT (" ++ draft.text ++ ")") := rfl
  rw [negated, expresses.isEmpty_eq]
  cases meaning with
  | none => exact expresses
  | some meaning =>
    obtain ⟨written, lexes, resolved⟩ := expresses
    have lexesOpen : Lexes "NOT (" [.not, .openParen] := by decide
    have lexesClose : Lexes ")" [.closeParen] := by decide
    have lexesAll := (lexesOpen.closed lexes ⟨'(', "NOT ".toList, rfl, rfl⟩).followed lexesClose
      ⟨')', [], rfl, rfl⟩
    refine ⟨.not written, ?_, ?_⟩
    · simpa [Draft.text, Draft.withText, Formula.tokens] using lexesAll
    · simp [Draft.withText, Formula.resolve, resolved]

/-- Two texts between parentheses are read as the two formulas under the connective. -/
theorem expresses_joined (connective : Connective) {first second : String} {bindings : Bindings}
    {firstWritten secondWritten : FormulaSyntax}
    {firstMeaning secondMeaning : Formula (Predicate (List PathSegment) Value)}
    (lexesFirst : Lexes first firstWritten.tokens) (lexesSecond : Lexes second secondWritten.tokens)
    (resolvedFirst : firstWritten.resolve bindings = some firstMeaning)
    (resolvedSecond : secondWritten.resolve bindings = some secondMeaning) :
    Lexes ("(" ++ first ++ ") " ++ connective.text ++ " (" ++ second ++ ")")
        (connective.apply firstWritten secondWritten).tokens ∧
      (connective.apply firstWritten secondWritten).resolve bindings =
        some (connective.apply firstMeaning secondMeaning) := by
  have lexesOpen : Lexes "(" [.openParen] := by decide
  have lexesClose : Lexes ")" [.closeParen] := by decide
  -- the mark between the two texts takes the parentheses on both sides of the connective along
  have lexesMark : Lexes (") " ++ connective.text ++ " (")
      [.closeParen, connective.token, .openParen] := by
    cases connective <;> decide
  have opens : Opens (") " ++ connective.text ++ " (") :=
    ⟨')', (" " ++ connective.text ++ " (").toList, by simp, rfl⟩
  have closes : Closes (") " ++ connective.text ++ " (") := .prepend ⟨'(', [' '], rfl, rfl⟩ _
  have lexesLeft := lexesOpen.closed lexesFirst ⟨'(', [], rfl, rfl⟩
  have lexesAll := (lexesLeft.joined lexesMark lexesSecond opens closes).followed lexesClose
    ⟨')', [], rfl, rfl⟩
  constructor
  · cases connective <;>
      simpa [Connective.apply, Connective.token, Formula.tokens, String.append_assoc] using lexesAll
  · cases connective <;> simp [Connective.apply, Formula.resolve, resolvedFirst, resolvedSecond]

theorem succeeds_merge {connective : Connective} {before other after : Draft}
    {meaning otherMeaning : Option (Formula (Predicate (List PathSegment) Value))}
    (expresses : before.Expresses meaning) (otherExpresses : other.Expresses otherMeaning)
    (run : Succeeds (merge other connective) before () after) :
    after.Expresses (connective.join meaning otherMeaning) := by
  unfold merge at run
  rw [otherExpresses.isEmpty_eq] at run
  cases otherMeaning with
  | none =>
    obtain ⟨-, rfl⟩ := succeeds_pure.1 run
    cases meaning <;> exact expresses
  | some otherMeaning =>
    obtain ⟨⟨⟩, _, runBind, runJoin⟩ := succeeds_bind.1 run
    obtain ⟨bindings, taken, rfl⟩ := (actsOn_bind _).succeeds_iff.1 runBind
    obtain ⟨within, otherWithin⟩ := Binding.succeeds_all taken
    obtain rfl := succeeds_modify.1 runJoin
    have rebound := expresses.rebind within
    obtain ⟨otherWritten, otherLexes, otherResolved⟩ := otherExpresses
    have otherRebound := Formula.resolve_within otherWithin otherResolved
    rw [rebound.isEmpty_eq]
    cases meaning with
    | none =>
      exact ⟨otherWritten, by simpa [Draft.text, Draft.withText] using otherLexes, otherRebound⟩
    | some meaning =>
      obtain ⟨written, lexes, resolved⟩ := rebound
      obtain ⟨lexesAll, resolvedAll⟩ := expresses_joined connective lexes otherLexes resolved
        otherRebound
      refine ⟨connective.apply written otherWritten, ?_, resolvedAll⟩
      simpa [Draft.text, Draft.withText] using lexesAll

theorem succeeds_mergeMany {connective : Connective} {others : List Draft}
    {meanings : List (Option (Formula (Predicate (List PathSegment) Value)))}
    (express : List.Forall₂ Draft.Expresses others meanings) {before after : Draft}
    {meaning : Option (Formula (Predicate (List PathSegment) Value))}
    (expresses : before.Expresses meaning)
    (run : Succeeds (mergeMany others connective) before () after) :
    after.Expresses (meanings.foldl connective.join meaning) := by
  induction express generalizing before meaning with
  | nil =>
    obtain ⟨-, rfl⟩ := succeeds_pure.1 run
    exact expresses
  | cons otherExpresses _ inductionHypothesis =>
    obtain ⟨⟨⟩, _, runFirst, runOthers⟩ := succeeds_bind.1 run
    exact inductionHypothesis (succeeds_merge expresses otherExpresses runFirst) runOthers

theorem succeeds_of_build {kind : ExpressionKind} {steps : Drafting Unit} {draft : Draft}
    (built : build kind steps = .ok draft) : Succeeds steps { kind } () draft := by
  unfold build at built
  split at built
  · next after run =>
    obtain rfl : after = draft := by simpa using built
    exact run
  · simp at built

theorem build_of_succeeds {kind : ExpressionKind} {steps : Drafting Unit} {draft : Draft}
    (run : Succeeds steps { kind } () draft) : build kind steps = .ok draft := by
  have run : steps.run.run { kind } = (.ok (), draft) := run
  rw [build, run]

end Drafting

namespace Condition

theorem expresses_join {kind : ExpressionKind} {connective : Connective} {parts : List Draft}
    {meanings : List (Option (Formula (Predicate (List PathSegment) Value)))} {draft : Draft}
    (express : List.Forall₂ Draft.Expresses parts meanings)
    (built : Drafting.build kind (Drafting.mergeMany parts connective) = .ok draft) :
    draft.Expresses (meanings.foldl connective.join none) := by
  have empty : Draft.Expresses { kind } none := rfl
  exact Drafting.succeeds_mergeMany express empty (Drafting.succeeds_of_build built)

mutual

/-- A draft expresses the meaning of the condition it was drafted from. -/
theorem expresses_draft {kind : ExpressionKind} : ∀ {condition : Condition} {draft : Draft},
    (∀ path ∈ condition.paths, Path.IsPlain path) → condition.draft kind = .ok draft →
      draft.Expresses condition.meaning
  | .test path attributeTest, draft, plain, drafted => by
    have blank : Draft.IsBlank { kind } := ⟨rfl, rfl, rfl⟩
    obtain ⟨frame, wraps, frames⟩ := frames_draftTest (plain path (by simp [paths])) blank
      (Drafting.succeeds_of_build drafted)
    exact frames.expresses
  | .all conditions, draft, plain, drafted => by
    obtain ⟨parts, areDrafted, built⟩ := bind_eq_ok.1 drafted
    exact expresses_join (express_draftAll plain areDrafted) built
  | .any conditions, draft, plain, drafted => by
    obtain ⟨parts, areDrafted, built⟩ := bind_eq_ok.1 drafted
    exact expresses_join (express_draftAll plain areDrafted) built
  | .not condition, draft, plain, drafted => by
    obtain ⟨inner, isDrafted, negated⟩ := bind_eq_ok.1 drafted
    obtain rfl := Except.ok.inj negated
    exact Drafting.expresses_negate (expresses_draft plain isDrafted)

theorem express_draftAll {kind : ExpressionKind} :
    ∀ {conditions : List Condition} {drafts : List Draft},
    (∀ path ∈ allPaths conditions, Path.IsPlain path) → draftAll kind conditions = .ok drafts →
      List.Forall₂ Draft.Expresses drafts (meanings conditions)
  | [], drafts, plain, drafted => by
    obtain rfl := Except.ok.inj drafted
    exact .nil
  | condition :: conditions, drafts, plain, drafted => by
    obtain ⟨first, isDrafted, rest⟩ := bind_eq_ok.1 drafted
    obtain ⟨others, areDrafted, answer⟩ := bind_eq_ok.1 rest
    obtain rfl := Except.ok.inj answer
    refine .cons ?_ ?_
    · exact expresses_draft (fun path isMember => plain path (by simp [allPaths, isMember])) isDrafted
    · exact express_draftAll (fun path isMember => plain path (by simp [allPaths, isMember])) areDrafted

end

/-- Joining conditions that all test something, at least one of them, tests something. -/
theorem isSome_foldl_join {α : Type} {connective : Connective} {meanings : List (Option (Formula α))}
    (areSome : ∀ meaning ∈ meanings, meaning.isSome) {start : Option (Formula α)}
    (nonempty : start.isSome ∨ meanings ≠ []) : (meanings.foldl connective.join start).isSome := by
  induction meanings generalizing start with
  | nil => simpa using nonempty
  | cons meaning meanings inductionHypothesis =>
    have isSome : meaning.isSome := areSome meaning (by simp)
    refine inductionHypothesis (fun other isMember => areSome other (by simp [isMember])) (.inl ?_)
    cases start with
    | none => exact isSome
    | some start =>
      obtain ⟨formula, rfl⟩ := Option.isSome_iff_exists.1 isSome
      rfl

theorem meanings_ne_nil {conditions : List Condition} (filled : (!conditions.isEmpty) = true) :
    meanings conditions ≠ [] := by
  cases conditions with
  | nil => simp at filled
  | cons condition conditions => simp [meanings]

mutual

theorem isSome_meaning {kind : ExpressionKind} : ∀ {condition : Condition} {draft : Draft},
    (∀ path ∈ condition.paths, Path.IsPlain path) → condition.isFilled = true →
      condition.draft kind = .ok draft → condition.meaning.isSome
  | .test path attributeTest, draft, plain, _, drafted => by
    have blank : Draft.IsBlank { kind } := ⟨rfl, rfl, rfl⟩
    obtain ⟨frame, wraps, frames⟩ := frames_draftTest (plain path (by simp [paths])) blank
      (Drafting.succeeds_of_build drafted)
    simp [meaning, frames.predicate_eq]
  | .all conditions, draft, plain, filled, drafted => by
    obtain ⟨parts, areDrafted, -⟩ := bind_eq_ok.1 drafted
    simp only [isFilled, Bool.and_eq_true] at filled
    have areSome := areSome_meanings plain filled.2 areDrafted
    exact isSome_foldl_join areSome (.inr (meanings_ne_nil filled.1))
  | .any conditions, draft, plain, filled, drafted => by
    obtain ⟨parts, areDrafted, -⟩ := bind_eq_ok.1 drafted
    simp only [isFilled, Bool.and_eq_true] at filled
    have areSome := areSome_meanings plain filled.2 areDrafted
    exact isSome_foldl_join areSome (.inr (meanings_ne_nil filled.1))
  | .not condition, draft, plain, filled, drafted => by
    obtain ⟨inner, isDrafted, -⟩ := bind_eq_ok.1 drafted
    have isSome : condition.meaning.isSome := isSome_meaning plain filled isDrafted
    simpa [meaning] using isSome

theorem areSome_meanings {kind : ExpressionKind} :
    ∀ {conditions : List Condition} {drafts : List Draft},
    (∀ path ∈ allPaths conditions, Path.IsPlain path) → allFilled conditions = true →
      draftAll kind conditions = .ok drafts → ∀ meaning ∈ meanings conditions, meaning.isSome
  | [], _, _, _, _ => by simp [meanings]
  | condition :: conditions, drafts, plain, filled, drafted => by
    obtain ⟨first, isDrafted, rest⟩ := bind_eq_ok.1 drafted
    obtain ⟨others, areDrafted, -⟩ := bind_eq_ok.1 rest
    simp only [allFilled, Bool.and_eq_true] at filled
    have isSome := isSome_meaning (fun path isMember => plain path (by simp [allPaths, isMember]))
      filled.1 isDrafted
    have areSome := areSome_meanings
      (fun path isMember => plain path (by simp [allPaths, isMember])) filled.2 areDrafted
    intro other isMember
    rcases List.mem_cons.1 isMember with rfl | isMember
    · exact isSome
    · exact areSome other isMember

end

theorem compile_eq_ok {kind : ExpressionKind} {condition : Condition}
    {compiled : Option CompiledExpression} (compiles : condition.compile kind = .ok compiled) :
    ∃ draft, condition.draft kind = .ok draft ∧ draft.compiled? = compiled := by
  unfold compile at compiles
  cases drafted : condition.draft kind with
  | error error => simp [drafted, Except.map] at compiles
  | ok draft => exact ⟨draft, rfl, by simpa [drafted, Except.map] using compiles⟩

/-- A condition with a meaning compiles to an expression that is read as that meaning. -/
theorem read_of_meaning {kind : ExpressionKind} {condition : Condition}
    {compiled : Option CompiledExpression}
    {meaning : Formula (Predicate (List PathSegment) Value)}
    (plain : ∀ path ∈ condition.paths, Path.IsPlain path)
    (meaning_eq : condition.meaning = some meaning)
    (compiles : condition.compile kind = .ok compiled) :
    ∃ expression, compiled = some expression ∧
      readCondition expression.text expression.bindings = some meaning := by
  obtain ⟨draft, drafted, rfl⟩ := compile_eq_ok compiles
  exact (meaning_eq ▸ expresses_draft plain drafted).read

/-- A condition that compiles is read back as it was meant: under the grammar of the service
its text has the structure of the condition, its names resolve to the paths of the tests and
its values to the values of the tests. -/
theorem read_compile {kind : ExpressionKind} {condition : Condition}
    {compiled : Option CompiledExpression}
    (plain : ∀ path ∈ condition.paths, Path.IsPlain path) (filled : condition.isFilled = true)
    (compiles : condition.compile kind = .ok compiled) :
    ∃ expression meaning, compiled = some expression ∧ condition.meaning = some meaning ∧
      readCondition expression.text expression.bindings = some meaning := by
  obtain ⟨draft, drafted, -⟩ := compile_eq_ok compiles
  obtain ⟨meaning, meaning_eq⟩ := Option.isSome_iff_exists.1 (isSome_meaning plain filled drafted)
  obtain ⟨expression, compiled_eq, read⟩ := read_of_meaning plain meaning_eq compiles
  exact ⟨expression, meaning, compiled_eq, meaning_eq, read⟩

/-- A range, a size under a negation and a disjunction around them. -/
theorem read_compile_nested :
    let condition : Condition := .any
      [.all [.test "tags[0].rank" (.between [.string "a", .string "b"]),
        .not (.test "name" (.size (.compare .greater (.string "c"))))], .test "id" .present]
    ∃ expression meaning, condition.compile .filter = .ok (some expression) ∧
      expression.text = "((#FE_tags[0].#FE_tags_rank BETWEEN :FE_tags_0_rank_start AND " ++
        ":FE_tags_0_rank_end) AND (NOT (size(#FE_name) > :FE_name))) OR (attribute_exists(#FE_id))" ∧
      condition.meaning = some meaning ∧
      readCondition expression.text expression.bindings = some meaning := by
  intro condition
  have plain : ∀ path ∈ condition.paths, Path.IsPlain path := by
    have segments_eq : condition.paths.flatMap Path.segments =
        [⟨"tags", "[0]"⟩, ⟨"rank", ""⟩, ⟨"name", ""⟩, ⟨"id", ""⟩] := by decide
    intro path isMember segment isSegment
    have isMember : segment ∈ condition.paths.flatMap Path.segments :=
      List.mem_flatMap.2 ⟨path, isMember, isSegment⟩
    simp only [segments_eq, List.mem_cons, List.not_mem_nil, or_false] at isMember
    rcases isMember with rfl | rfl | rfl | rfl
    · exact ⟨by decide, ["0"], by simp [IsDigits], rfl⟩
    · exact ⟨by decide, [], by simp, rfl⟩
    · exact ⟨by decide, [], by simp, rfl⟩
    · exact ⟨by decide, [], by simp, rfl⟩
  have filled : condition.isFilled = true := by decide
  have text_eq : (condition.compile .filter).map (Option.map (·.text)) =
      .ok (some ("((#FE_tags[0].#FE_tags_rank BETWEEN :FE_tags_0_rank_start AND " ++
        ":FE_tags_0_rank_end) AND (NOT (size(#FE_name) > :FE_name))) OR (attribute_exists(#FE_id))")) := by
    decide +kernel
  cases compiles : condition.compile .filter with
  | error error => simp [compiles, Except.map] at text_eq
  | ok compiled =>
    obtain ⟨expression, meaning, rfl, meaning_eq, read⟩ := read_compile plain filled compiles
    refine ⟨expression, meaning, rfl, ?_, meaning_eq, read⟩
    simpa [compiles, Except.map] using text_eq

end Condition

end SingleTable
