import SingleTable.Proofs.Condition.Meaning

/-!
# A single test as it is drafted

The text of a test is a frame around the reference to its path (`Frame`).  Whatever operand
stands in the frame, the text is read as the same predicate of it; so wrapping the reference in
`size` changes the operand and nothing else.
-/

namespace SingleTable

open Grammar

/-! ## Steps on drafts -/

namespace Drafting

theorem actsOn_bind {α : Type} (step : Binding α) :
    ActsOn (Drafting.bind step) step (·.bindings) fun draft bindings => { draft with bindings } :=
  fun _ => rfl

theorem succeeds_bindValue {path suffix text : String} {value : Value} {before after : Draft}
    (run : Succeeds (bindValue path suffix value) before text after) :
    ∃ bindings, after = { before with bindings } ∧ before.bindings.Within bindings ∧
      text = before.kind.valuePlaceholder path suffix ∧ bindings.values.get? text = some value := by
  obtain ⟨_, _, got, run⟩ := succeeds_bind.1 run
  obtain ⟨rfl, rfl⟩ := succeeds_get.1 got
  obtain ⟨bindings, bound, rfl⟩ := (actsOn_bind _).succeeds_iff.1 run
  obtain ⟨within, text_eq, isBound⟩ := ExpressionKind.succeeds_bindValue bound
  exact ⟨bindings, rfl, within, text_eq, isBound⟩

/-- A reference is added as the last one, bound to the segments of its path. -/
theorem succeeds_reference {path : String} (plain : Path.IsPlain path) {before after : Draft}
    (run : Succeeds (reference path) before () after) :
    ∃ bindings text, after = { before with
        before := before.text, last := some text, after := "", bindings } ∧
      before.bindings.Within bindings ∧
      ∃ written : PathSyntax, Lexes text written.tokens ∧
        written.resolve bindings = some (Path.segments path) := by
  obtain ⟨text, _, runPath, runPush⟩ := succeeds_bind.1 run
  obtain ⟨_, _, got, runBind⟩ := succeeds_bind.1 runPath
  obtain ⟨rfl, rfl⟩ := succeeds_get.1 got
  obtain ⟨bindings, bound, rfl⟩ := (actsOn_bind _).succeeds_iff.1 runBind
  obtain rfl := succeeds_modify.1 runPush
  obtain ⟨within, text_eq, areBound⟩ := ExpressionKind.succeeds_bindPath bound
  obtain ⟨written, lexes, resolved⟩ := ExpressionKind.exists_syntax_referenceText plain areBound
  exact ⟨bindings, text, rfl, within, written, text_eq ▸ lexes, resolved⟩

theorem succeeds_bindNumbered {path : String} (plain : Path.IsPlain path) {first : Nat}
    {values : List Value} {placeholders : List String} {before after : Draft}
    (run : Succeeds (bindNumbered path first values) before placeholders after) :
    ∃ bindings, after = { before with bindings } ∧ before.bindings.Within bindings ∧
      placeholders.mapM bindings.values.get? = some values ∧
      ∀ placeholder ∈ placeholders, Lexes placeholder [.value placeholder] := by
  induction values generalizing first placeholders before with
  | nil =>
    obtain ⟨rfl, rfl⟩ := succeeds_pure.1 run
    exact ⟨_, rfl, .refl _, rfl, by simp⟩
  | cons value values inductionHypothesis =>
    obtain ⟨placeholder, _, runFirst, runOthers⟩ := succeeds_bind.1 run
    obtain ⟨others, _, runOthers, answer⟩ := succeeds_bind.1 runOthers
    obtain ⟨rfl, rfl⟩ := succeeds_pure.1 answer
    obtain ⟨middle, rfl, withinFirst, placeholder_eq, isBound⟩ := succeeds_bindValue runFirst
    obtain ⟨bindings, rfl, withinOthers, bound, lexes⟩ := inductionHypothesis runOthers
    have isWordDigits : IsWord first.repr := by
      intro c isMember
      rw [Nat.toList_repr] at isMember
      exact isWordChar_of_isDigit (Nat.isDigit_of_mem_toDigits (by decide) (by decide) isMember)
    refine ⟨bindings, rfl, withinFirst.trans withinOthers, ?_, ?_⟩
    · simp [withinOthers.values isBound, bound]
    · intro other isMember
      rcases List.mem_cons.1 isMember with rfl | isMember
      · rw [placeholder_eq]
        exact ExpressionKind.lexes_valuePlaceholder plain (IsWord.append (by decide) isWordDigits)
      · exact lexes other isMember

end Drafting

/-! ## A single test -/

/-- A predicate around an operand: the text on both sides of the operand, how the predicate is
written and what it means. -/
structure Frame where
  before : String
  after : String
  written : Operand PathSyntax String → Predicate PathSyntax String
  meant : Operand (List PathSegment) Value → Predicate (List PathSegment) Value

/-- The text around any operand is read as the predicate that is meant. -/
structure Frame.Holds (frame : Frame) (bindings : Bindings) : Prop where
  lexes : ∀ {text operand}, Lexes text operand.tokens →
    Lexes (frame.before ++ text ++ frame.after) (frame.written operand).tokens
  resolve : ∀ {operand resolved}, operand.resolve bindings = some resolved →
    (frame.written operand).resolve bindings = some (frame.meant resolved)

def Frame.compare (comparison : Comparison) (placeholder : String) (value : Value) : Frame where
  before := ""
  after := " " ++ comparison.symbol ++ " " ++ placeholder
  written operand := .compare operand comparison (.value placeholder)
  meant operand := .compare operand comparison (.value value)

def Frame.call (function : AttributeFunction) : Frame where
  before := function.text ++ "("
  after := ")"
  written operand := .call function operand none
  meant operand := .call function operand none

def Frame.callWith (function : AttributeFunction) (placeholder : String) (value : Value) :
    Frame where
  before := function.text ++ "("
  after := ", " ++ placeholder ++ ")"
  written operand := .call function operand (some (.value placeholder))
  meant operand := .call function operand (some (.value value))

def Frame.between (low high : String) (lowValue highValue : Value) : Frame where
  before := ""
  after := " BETWEEN " ++ low ++ " AND " ++ high
  written operand := .between operand (.value low) (.value high)
  meant operand := .between operand (.value lowValue) (.value highValue)

def Frame.oneOf (first : String) (others : List String) (firstValue : Value)
    (otherValues : List Value) : Frame where
  before := ""
  after := " IN (" ++ ", ".intercalate (first :: others) ++ ")"
  written operand := .oneOf operand (.value first) (others.map .value)
  meant operand := .oneOf operand (.value firstValue) (otherValues.map .value)

namespace Frame

variable {bindings : Bindings} {placeholder : String} {value : Value}

theorem holds_compare (comparison : Comparison) (lexesValue : Lexes placeholder [.value placeholder])
    (isBound : bindings.values.get? placeholder = some value) :
    (compare comparison placeholder value).Holds bindings := by
  constructor
  · intro text operand lexesText
    have lexesSymbol : Lexes (" " ++ comparison.symbol ++ " ") [.comparison comparison] := by
      cases comparison <;> decide
    have opens : Opens (" " ++ comparison.symbol ++ " ") :=
      ⟨' ', (comparison.symbol ++ " ").toList, by simp, rfl⟩
    have closes : Closes (" " ++ comparison.symbol ++ " ") := .prepend ⟨' ', [], rfl, rfl⟩ _
    have lexesAll := lexesText.joined lexesSymbol lexesValue opens closes
    simpa [compare, Predicate.tokens, Operand.tokens, String.append_assoc] using lexesAll
  · intro operand resolved isResolved
    simp [compare, Predicate.resolve, Operand.resolve, isResolved, isBound]

theorem lexes_call (function : AttributeFunction) :
    Lexes (function.text ++ "(") [.function function, .openParen] := by
  cases function <;> decide

theorem closes_call (function : AttributeFunction) : Closes (function.text ++ "(") :=
  .prepend ⟨'(', [], rfl, rfl⟩ _

theorem holds_call (function : AttributeFunction) : (call function).Holds bindings := by
  constructor
  · intro text operand lexesText
    have lexesClose : Lexes ")" [.closeParen] := by decide
    have lexesAll := ((lexes_call function).closed lexesText (closes_call function)).followed
      lexesClose ⟨')', [], rfl, rfl⟩
    simpa [call, Predicate.tokens] using lexesAll
  · intro operand resolved isResolved
    simp [call, Predicate.resolve, isResolved]

theorem holds_callWith (function : AttributeFunction)
    (lexesValue : Lexes placeholder [.value placeholder])
    (isBound : bindings.values.get? placeholder = some value) :
    (callWith function placeholder value).Holds bindings := by
  constructor
  · intro text operand lexesText
    have lexesComma : Lexes ", " [.comma] := by decide
    have lexesClose : Lexes ")" [.closeParen] := by decide
    have lexesArgument := (((lexes_call function).closed lexesText (closes_call function)).joined
      lexesComma lexesValue ⟨',', [' '], rfl, rfl⟩ ⟨' ', [','], rfl, rfl⟩)
    have lexesAll := lexesArgument.followed lexesClose ⟨')', [], rfl, rfl⟩
    simpa [callWith, Predicate.tokens, Operand.tokens, String.append_assoc] using lexesAll
  · intro operand resolved isResolved
    simp [callWith, Predicate.resolve, Operand.resolve, isResolved, isBound]

theorem holds_between {low high : String} {lowValue highValue : Value}
    (lexesLow : Lexes low [.value low]) (lexesHigh : Lexes high [.value high])
    (isBoundLow : bindings.values.get? low = some lowValue)
    (isBoundHigh : bindings.values.get? high = some highValue) :
    (between low high lowValue highValue).Holds bindings := by
  constructor
  · intro text operand lexesText
    have lexesBetween : Lexes " BETWEEN " [.between] := by decide
    have lexesAnd : Lexes " AND " [.and] := by decide
    have lexesFirst := lexesText.joined lexesBetween lexesLow
      ⟨' ', "BETWEEN ".toList, rfl, rfl⟩ ⟨' ', " BETWEEN".toList, rfl, rfl⟩
    have lexesAll := lexesFirst.joined lexesAnd lexesHigh
      ⟨' ', "AND ".toList, rfl, rfl⟩ ⟨' ', " AND".toList, rfl, rfl⟩
    simpa [between, Predicate.tokens, Operand.tokens, String.append_assoc] using lexesAll
  · intro operand resolved isResolved
    simp [between, Predicate.resolve, Operand.resolve, isResolved, isBoundLow, isBoundHigh]

theorem mapM_resolve_values {placeholders : List String} {values : List Value}
    (areBound : placeholders.mapM bindings.values.get? = some values) :
    (placeholders.map Operand.value).mapM (Operand.resolve bindings) =
      some (values.map Operand.value) := by
  induction placeholders generalizing values with
  | nil =>
    obtain rfl : [] = values := by simpa using areBound
    rfl
  | cons placeholder placeholders inductionHypothesis =>
    simp only [List.mapM_cons, Option.pure_def, Option.bind_eq_bind, Option.bind_eq_some_iff,
      Option.some.injEq] at areBound
    obtain ⟨value, isBound, others, areBoundOthers, rfl⟩ := areBound
    simp [Operand.resolve, isBound, inductionHypothesis areBoundOthers]

theorem holds_oneOf {first : String} {others : List String} {firstValue : Value}
    {otherValues : List Value}
    (lexes : ∀ placeholder ∈ first :: others, Lexes placeholder [.value placeholder])
    (areBound : (first :: others).mapM bindings.values.get? = some (firstValue :: otherValues)) :
    (oneOf first others firstValue otherValues).Holds bindings := by
  constructor
  · intro text operand lexesText
    have lexesIn : Lexes " IN (" [.inList, .openParen] := by decide
    have lexesComma : Lexes ", " [.comma] := by decide
    have lexesClose : Lexes ")" [.closeParen] := by decide
    have lexesOthers : List.Forall₂ (fun text other => Lexes text [.value other]) others others :=
      List.forall₂_same.2 fun other isMember => lexes other (by simp [isMember])
    have lexesList := lexesComma.intercalate (fun other => [.value other]) ⟨',', [' '], rfl, rfl⟩
      ⟨' ', [','], rfl, rfl⟩ (lexes first (by simp)) lexesOthers
    have lexesAll := (lexesText.joined lexesIn lexesList
      ⟨' ', "IN (".toList, rfl, rfl⟩ ⟨'(', " IN ".toList, rfl, rfl⟩).followed
      lexesClose ⟨')', [], rfl, rfl⟩
    simpa [oneOf, Predicate.tokens, Operand.tokens, otherTokens, List.flatMap_map,
      Function.comp_def, String.append_assoc] using lexesAll
  · intro operand resolved isResolved
    simp only [List.mapM_cons, Option.pure_def, Option.bind_eq_bind, Option.bind_eq_some_iff,
      Option.some.injEq, List.cons.injEq] at areBound
    obtain ⟨_, isBoundFirst, _, areBoundOthers, rfl, rfl⟩ := areBound
    simp [oneOf, Predicate.resolve, Operand.resolve, isResolved, isBoundFirst,
      mapM_resolve_values areBoundOthers]

end Frame

/-- A draft is a frame around an operand that wraps a path as often as its test prescribes. -/
structure Draft.Frames (draft : Draft) (frame : Frame) (wraps : Nat) (path : String)
    (test : AttributeTest) : Prop where
  before : draft.before = frame.before
  after : draft.after = frame.after
  last : ∃ (reference : String) (operand : Operand PathSyntax String),
    draft.last = some reference ∧ Lexes reference operand.tokens ∧
      operand.resolve draft.bindings = some (Operand.size^[wraps] (.path (Path.segments path)))
  holds : frame.Holds draft.bindings
  predicate_eq : ∀ operand, test.predicate? operand = some (frame.meant (Operand.size^[wraps] operand))

/-- Nothing was written on a draft yet. -/
structure Draft.IsBlank (draft : Draft) : Prop where
  before : draft.before = ""
  last : draft.last = none
  after : draft.after = ""

namespace Draft.IsBlank

variable {draft : Draft} (blank : draft.IsBlank)
include blank

theorem text : draft.text = "" := by
  simp [Draft.text, blank.before, blank.last, blank.after]

theorem pushBlank : draft.pushBlank = draft := by
  simp [Draft.pushBlank, blank.text]

theorem rebind (bindings : Bindings) : { draft with bindings }.IsBlank :=
  ⟨blank.before, blank.last, blank.after⟩

theorem text_push (text : String) : (draft.push text).text = text := by
  simp [Draft.push, Draft.text, blank.before, blank.last, blank.after]

end Draft.IsBlank

theorem Drafting.succeeds_referenceThen {path closing : String} (plain : Path.IsPlain path)
    {before after : Draft}
    (run : Succeeds (do Drafting.reference path; modify (·.push closing)) before () after) :
    after.before = before.text ∧ after.after = closing ∧ before.bindings.Within after.bindings ∧
      ∃ (reference : String) (operand : Operand PathSyntax String),
        after.last = some reference ∧ Lexes reference operand.tokens ∧
          operand.resolve after.bindings = some (.path (Path.segments path)) := by
  obtain ⟨⟨⟩, _, runReference, runPush⟩ := succeeds_bind.1 run
  obtain ⟨bindings, reference, rfl, within, written, lexes, resolved⟩ :=
    succeeds_reference plain runReference
  obtain rfl := succeeds_modify.1 runPush
  refine ⟨rfl, by simp [Draft.push], within, reference, .path written, rfl, lexes, ?_⟩
  simp [Draft.push, Operand.resolve, resolved]

namespace Condition

section Tests

variable {path : String} (plain : Path.IsPlain path) {before after : Draft}
  (blank : before.IsBlank)
include plain blank

theorem frames_compare {comparison : Comparison} {value : Value}
    (run : Succeeds (Drafting.compare path comparison value) before () after) :
    ∃ frame, after.Frames frame 0 path (.compare comparison value) := by
  obtain ⟨placeholder, _, runValue, runRest⟩ := succeeds_bind.1 run
  obtain ⟨⟨⟩, _, runBlank, runRest⟩ := succeeds_bind.1 runRest
  obtain ⟨middle, rfl, -, placeholder_eq, isBound⟩ := Drafting.succeeds_bindValue runValue
  obtain rfl := succeeds_modify.1 runBlank
  have blank := blank.rebind middle
  rw [blank.pushBlank] at runRest
  obtain ⟨before_eq, after_eq, within, last⟩ := Drafting.succeeds_referenceThen plain runRest
  have lexesValue : Lexes placeholder [.value placeholder] := by
    rw [placeholder_eq]
    exact ExpressionKind.lexes_valuePlaceholder plain (by decide)
  refine ⟨.compare comparison placeholder value, ?_, ?_, last, ?_, ?_⟩
  · rw [before_eq, blank.text]
    rfl
  · rw [after_eq]
    rfl
  · exact Frame.holds_compare comparison lexesValue (within.values isBound)
  · intro operand
    rfl

theorem frames_call {function : AttributeFunction} (test : AttributeTest)
    (predicate_eq : ∀ operand, test.predicate? operand = some (.call function operand none))
    (run : Succeeds (Drafting.call function path none) before () after) :
    ∃ frame, after.Frames frame 0 path test := by
  obtain ⟨_, _, runNothing, runRest⟩ := succeeds_bind.1 run
  obtain ⟨rfl, rfl⟩ := succeeds_pure.1 runNothing
  obtain ⟨⟨⟩, _, runBlank, runRest⟩ := succeeds_bind.1 runRest
  obtain rfl := succeeds_modify.1 runBlank
  rw [blank.pushBlank] at runRest
  obtain ⟨⟨⟩, _, runOpen, runRest⟩ := succeeds_bind.1 runRest
  obtain rfl := succeeds_modify.1 runOpen
  obtain ⟨before_eq, after_eq, -, last⟩ := Drafting.succeeds_referenceThen plain runRest
  refine ⟨.call function, ?_, ?_, last, Frame.holds_call function, predicate_eq⟩
  · rw [before_eq, blank.text_push]
    rfl
  · rw [after_eq]
    rfl

theorem frames_callWith {function : AttributeFunction} {value : Value} (test : AttributeTest)
    (predicate_eq : ∀ operand,
      test.predicate? operand = some (.call function operand (some (.value value))))
    (run : Succeeds (Drafting.call function path (some value)) before () after) :
    ∃ frame, after.Frames frame 0 path test := by
  obtain ⟨_, _, runValue, runRest⟩ := succeeds_bind.1 run
  obtain ⟨placeholder, _, runValue, runSome⟩ := succeeds_bind.1 runValue
  obtain ⟨rfl, rfl⟩ := succeeds_pure.1 runSome
  obtain ⟨middle, rfl, -, placeholder_eq, isBound⟩ := Drafting.succeeds_bindValue runValue
  have blank := blank.rebind middle
  obtain ⟨⟨⟩, _, runBlank, runRest⟩ := succeeds_bind.1 runRest
  obtain rfl := succeeds_modify.1 runBlank
  rw [blank.pushBlank] at runRest
  obtain ⟨⟨⟩, _, runOpen, runRest⟩ := succeeds_bind.1 runRest
  obtain rfl := succeeds_modify.1 runOpen
  obtain ⟨before_eq, after_eq, within, last⟩ := Drafting.succeeds_referenceThen plain runRest
  have lexesValue : Lexes placeholder [.value placeholder] := by
    rw [placeholder_eq]
    exact ExpressionKind.lexes_valuePlaceholder plain (by decide)
  refine ⟨.callWith function placeholder value, ?_, ?_, last, ?_, predicate_eq⟩
  · rw [before_eq, blank.text_push]
    rfl
  · rw [after_eq]
    rfl
  · exact Frame.holds_callWith function lexesValue (within.values isBound)

theorem frames_between {values : List Value}
    (run : Succeeds (Drafting.between path values) before () after) :
    ∃ frame, after.Frames frame 0 path (.between values) := by
  unfold Drafting.between at run
  split at run
  · next lowValue highValue =>
    obtain ⟨low, _, runLow, runRest⟩ := succeeds_bind.1 run
    obtain ⟨high, _, runHigh, runRest⟩ := succeeds_bind.1 runRest
    obtain ⟨⟨⟩, _, runBlank, runRest⟩ := succeeds_bind.1 runRest
    obtain ⟨middle, rfl, -, low_eq, isBoundLow⟩ := Drafting.succeeds_bindValue runLow
    obtain ⟨bindings, rfl, withinMiddle, high_eq, isBoundHigh⟩ :=
      Drafting.succeeds_bindValue runHigh
    obtain rfl := succeeds_modify.1 runBlank
    have blank := blank.rebind bindings
    rw [blank.pushBlank] at runRest
    obtain ⟨before_eq, after_eq, within, last⟩ := Drafting.succeeds_referenceThen plain runRest
    have lexesLow : Lexes low [.value low] := by
      rw [low_eq]
      exact ExpressionKind.lexes_valuePlaceholder plain (by decide)
    have lexesHigh : Lexes high [.value high] := by
      rw [high_eq]
      exact ExpressionKind.lexes_valuePlaceholder plain (by decide)
    refine ⟨.between low high lowValue highValue, ?_, ?_, last, ?_, ?_⟩
    · rw [before_eq, blank.text]
      rfl
    · rw [after_eq]
      rfl
    · exact Frame.holds_between lexesLow lexesHigh
        (within.values (withinMiddle.values isBoundLow)) (within.values isBoundHigh)
    · intro operand
      rfl
  · -- a range has two ends
    exact absurd run not_succeeds_throw

theorem frames_inList {values : List Value}
    (run : Succeeds (Drafting.inList path values) before () after) :
    ∃ frame, after.Frames frame 0 path (.inList values) := by
  unfold Drafting.inList at run
  cases values with
  | nil =>
    obtain ⟨_, _, thrown, -⟩ := succeeds_bind.1 run
    exact absurd thrown not_succeeds_throw
  | cons firstValue otherValues =>
    obtain ⟨placeholders, _, runValues, runRest⟩ := succeeds_bind.1 run
    obtain ⟨⟨⟩, _, runBlank, runRest⟩ := succeeds_bind.1 runRest
    obtain ⟨bindings, rfl, -, areBound, lexes⟩ := Drafting.succeeds_bindNumbered plain runValues
    obtain rfl := succeeds_modify.1 runBlank
    have blank := blank.rebind bindings
    rw [blank.pushBlank] at runRest
    obtain ⟨before_eq, after_eq, within, last⟩ := Drafting.succeeds_referenceThen plain runRest
    cases placeholders with
    | nil => simp at areBound
    | cons first others =>
      refine ⟨.oneOf first others firstValue otherValues, ?_, ?_, last, ?_, ?_⟩
      · rw [before_eq, blank.text]
        rfl
      · rw [after_eq]
        rfl
      · exact Frame.holds_oneOf lexes (mapM_of_each (fun _ _ => within.values) areBound)
      · intro operand
        rfl

/-- Every test that is drafted is a frame around the wrapped path. -/
theorem frames_draftTest {test : AttributeTest}
    (run : Succeeds (draftTest path test) before () after) :
    ∃ frame wraps, after.Frames frame wraps path test := by
  induction test generalizing after with
  | compare comparison value =>
    obtain ⟨frame, frames⟩ := frames_compare plain blank run
    exact ⟨frame, 0, frames⟩
  | beginsWith value =>
    obtain ⟨frame, frames⟩ := frames_callWith plain blank (.beginsWith value) (fun _ => rfl) run
    exact ⟨frame, 0, frames⟩
  | contains value =>
    obtain ⟨frame, frames⟩ := frames_callWith plain blank (.contains value) (fun _ => rfl) run
    exact ⟨frame, 0, frames⟩
  | hasType code =>
    obtain ⟨frame, frames⟩ := frames_callWith plain blank (.hasType code) (fun _ => rfl) run
    exact ⟨frame, 0, frames⟩
  | between values =>
    obtain ⟨frame, frames⟩ := frames_between plain blank run
    exact ⟨frame, 0, frames⟩
  | inList values =>
    obtain ⟨frame, frames⟩ := frames_inList plain blank run
    exact ⟨frame, 0, frames⟩
  | present =>
    obtain ⟨frame, frames⟩ := frames_call plain blank .present (fun _ => rfl) run
    exact ⟨frame, 0, frames⟩
  | absent =>
    obtain ⟨frame, frames⟩ := frames_call plain blank .absent (fun _ => rfl) run
    exact ⟨frame, 0, frames⟩
  | size test inductionHypothesis =>
    obtain ⟨⟨⟩, _, runTest, runSize⟩ := succeeds_bind.1 run
    obtain ⟨frame, wraps, frames⟩ := inductionHypothesis runTest
    obtain rfl := succeeds_modify.1 runSize
    obtain ⟨reference, operand, isLast, lexes, resolved⟩ := frames.last
    refine ⟨frame, wraps + 1, frames.before, frames.after, ?_, frames.holds, ?_⟩
    · -- the reference emitted last is wrapped once more, the frame around it stays
      refine ⟨"size(" ++ reference ++ ")", .size operand, by simp [isLast], ?_, ?_⟩
      · have lexesOpen : Lexes "size(" [.size, .openParen] := by decide
        have lexesClose : Lexes ")" [.closeParen] := by decide
        exact (lexesOpen.closed lexes ⟨'(', "size".toList, rfl, rfl⟩).followed lexesClose
          ⟨')', [], rfl, rfl⟩
      · rw [Function.iterate_succ_apply']
        simp [Operand.resolve, resolved]
    · intro operand
      rw [Function.iterate_succ_apply]
      exact frames.predicate_eq (.size operand)

end Tests

end Condition

end SingleTable
