import SingleTable.Proofs.Condition.Failure
import SingleTable.Proofs.Condition.Flat

/-!
# Where the reference emitted last stands

Drafts of three parts and flat drafts are written by the same steps, and whatever the steps are, failing
ones included, the two agree: every step keeps the offsets at the ends of the middle part (`Mirrors`,
`ExpressionStep.follows`).  The middle part is what the record of references says: the reference emitted
last, wrapped as often as `size` was called since (`recalled`), unless something was combined after it.
So no insertion goes wrong, and `size` changes nothing but what stands around that reference
(`FlatDraft.size_wraps_last`).
-/

namespace SingleTable

open ReferenceEvent

/-! ## Agreement of both drafts -/

/-- A flat draft has the text of a draft, the offsets of its middle part, and a record of references
that tells what the middle part is. -/
structure Mirrors (draft : Draft) (flat : FlatDraft) : Prop where
  kind_eq : flat.kind = draft.kind
  text_eq : flat.text = draft.text
  bindings_eq : flat.bindings = draft.bindings
  span_eq : flat.span = draft.last.map fun last =>
    (draft.before.utf8ByteSize, (draft.before ++ last).utf8ByteSize)
  last_eq : draft.last = (recalled flat.history).map fun (reference, count) => wrapped reference count

/-- A computation on flat drafts has the outcome of one on drafts, and never inserts out of place. -/
def Follows {α : Type} (writing : Writing α) (drafting : Drafting α) : Prop :=
  ∀ draft flat, Mirrors draft flat →
    ∃ outcome after flatAfter, (drafting.run.run draft : Except Error α × Draft) = (outcome, after) ∧
      writing.run.run flat = some (outcome, flatAfter) ∧ Mirrors after flatAfter

section Rules

variable {α β : Type}

theorem follows_pure (answer : α) : Follows (pure answer) (pure answer) :=
  fun draft flat mirrors => ⟨.ok answer, draft, flat, rfl, rfl, mirrors⟩

theorem follows_throw (error : Error) : Follows (throw error : Writing α) (throw error) :=
  fun draft flat mirrors => ⟨.error error, draft, flat, rfl, rfl, mirrors⟩

theorem follows_modify {writes : FlatDraft → FlatDraft} {drafts : Draft → Draft}
    (mirrored : ∀ {draft flat}, Mirrors draft flat → Mirrors (drafts draft) (writes flat)) :
    Follows (modify writes) (modify drafts) :=
  fun draft flat mirrors => ⟨.ok ⟨⟩, drafts draft, writes flat, rfl, rfl, mirrored mirrors⟩

theorem Follows.andThen {writing : Writing α} {drafting : Drafting α} {writingNext : α → Writing β}
    {draftingNext : α → Drafting β} (first : Follows writing drafting)
    (second : ∀ answer, Follows (writingNext answer) (draftingNext answer)) :
    Follows (writing >>= writingNext) (drafting >>= draftingNext) := by
  intro draft flat mirrors
  obtain ⟨outcome, after, flatAfter, drafted, written, mirrorsAfter⟩ := first draft flat mirrors
  rw [run_bind, drafted, Writing.run_bind, written]
  cases outcome with
  | error error => exact ⟨.error error, after, flatAfter, rfl, rfl, mirrorsAfter⟩
  | ok answer => exact second answer after flatAfter mirrorsAfter

theorem Follows.map {writing : Writing α} {drafting : Drafting α} (f : α → β)
    (follows : Follows writing drafting) : Follows (f <$> writing) (f <$> drafting) :=
  follows.andThen fun answer => follows_pure (f answer)

theorem follows_bind (step : Binding α) : Follows (Writing.bind step) (Drafting.bind step) :=
  fun draft flat mirrors =>
    ⟨(step draft.bindings).1, { draft with bindings := (step draft.bindings).2 },
      { flat with bindings := (step flat.bindings).2 }, rfl, by rw [← mirrors.bindings_eq]; rfl,
      { mirrors with bindings_eq := by rw [mirrors.bindings_eq] }⟩

/-- What depends on the kind of the expression. -/
theorem follows_kind {writing : ExpressionKind → Writing α} {drafting : ExpressionKind → Drafting α}
    (follows : ∀ kind, Follows (writing kind) (drafting kind)) :
    Follows (do writing (← get).kind) (do drafting (← get).kind) := by
  intro draft flat mirrors
  obtain ⟨outcome, after, flatAfter, drafted, written, mirrorsAfter⟩ :=
    follows draft.kind draft flat mirrors
  rw [← mirrors.kind_eq] at written
  exact ⟨outcome, after, flatAfter, drafted, written, mirrorsAfter⟩

end Rules

/-! ## What a draft is written with -/

namespace Mirrors

variable {draft : Draft} {flat : FlatDraft}

theorem push (mirrors : Mirrors draft flat) (text : String) :
    Mirrors (draft.push text) (flat.push text) :=
  { mirrors with
    text_eq := by simp [Draft.push, FlatDraft.push, Draft.text, mirrors.text_eq, String.append_assoc] }

theorem pushBlank (mirrors : Mirrors draft flat) : Mirrors draft.pushBlank flat.pushBlank := by
  unfold Draft.pushBlank FlatDraft.pushBlank
  rw [mirrors.text_eq]
  cases draft.text.toList.getLast? with
  | none => exact mirrors
  | some c =>
    dsimp only
    split
    · exact mirrors
    · exact mirrors.push " "

theorem pushReference (mirrors : Mirrors draft flat) (reference : String) :
    Mirrors (draft.pushReference reference) (flat.pushReference reference) where
  kind_eq := mirrors.kind_eq
  bindings_eq := mirrors.bindings_eq
  text_eq := by simp [Draft.pushReference, FlatDraft.pushReference, Draft.text, mirrors.text_eq]
  span_eq := by simp [Draft.pushReference, FlatDraft.pushReference, mirrors.text_eq]
  last_eq := by simp [Draft.pushReference, FlatDraft.pushReference, lastAfter, wrapped]

theorem combine (mirrors : Mirrors draft flat) (text : String) :
    Mirrors (draft.withText text) (flat.combine text) where
  kind_eq := mirrors.kind_eq
  bindings_eq := mirrors.bindings_eq
  text_eq := by simp [Draft.withText, FlatDraft.combine, Draft.text]
  span_eq := rfl
  last_eq := by simp [Draft.withText, FlatDraft.combine, lastAfter]

theorem isEmpty_eq (mirrors : Mirrors draft flat) : flat.text.isEmpty = draft.isEmpty := by
  rw [mirrors.text_eq, Draft.isEmpty]

end Mirrors

/-- A further event of calling `size`. -/
theorem recalled_sized (history : List ReferenceEvent) :
    ((recalled (history ++ [sized])).map fun (reference, count) => wrapped reference count) =
      ((recalled history).map fun (reference, count) => wrapped reference count).map fun reference =>
        "size(" ++ reference ++ ")" := by
  rw [recalled_concat]
  cases recalled history <;> rfl

theorem utf8ByteSize_sized (before last : String) :
    (before ++ last).utf8ByteSize + "size()".utf8ByteSize =
      (before ++ ("size(" ++ last ++ ")")).utf8ByteSize := by
  have sizes : "size()".utf8ByteSize = "size(".utf8ByteSize + ")".utf8ByteSize := rfl
  simp only [String.utf8ByteSize_append, sizes]
  omega

namespace FlatDraft

/-- `size` inserts at both offsets, around what lies between them. -/
theorem size_around {flat : FlatDraft} {before last after : String}
    (text_eq : flat.text = before ++ last ++ after)
    (span_eq : flat.span = some (before.utf8ByteSize, (before ++ last).utf8ByteSize)) :
    Writing.size.run.run flat = some (.ok (), { flat with
      text := before ++ ("size(" ++ last ++ ")") ++ after
      span := some (before.utf8ByteSize, (before ++ last).utf8ByteSize + "size()".utf8ByteSize)
      history := flat.history ++ [sized] }) := by
  have closed : insertAt? flat.text (before ++ last).utf8ByteSize ")" =
      some (before ++ (last ++ ")" ++ after)) := by
    rw [text_eq, insertAt?_append]
    simp only [String.append_assoc]
  have opened := insertAt?_append before (last ++ ")" ++ after) "size("
  change Writing.size flat = _
  simp only [Writing.size, span_eq, closed, opened, Option.bind_eq_bind, Option.bind_some]
  simp only [String.append_assoc]
  rfl

/-- Without a reference, `size` writes nothing. -/
theorem size_nowhere {flat : FlatDraft} (span_eq : flat.span = none) :
    Writing.size.run.run flat = some (.ok (), { flat with history := flat.history ++ [sized] }) := by
  change Writing.size flat = _
  rw [Writing.size, span_eq]

end FlatDraft

namespace Writing

theorem follows_size : Follows Writing.size Drafting.size := by
  rintro ⟨kind, before, last, after, bindings⟩ flat mirrors
  have last_eq : (last.map fun reference => "size(" ++ reference ++ ")") = _ :=
    (congrArg _ mirrors.last_eq).trans (recalled_sized flat.history).symm
  cases last with
  | none =>
    exact ⟨.ok (), _, _, rfl, FlatDraft.size_nowhere mirrors.span_eq, { mirrors with last_eq }⟩
  | some last =>
    refine ⟨.ok (), _, _, rfl, FlatDraft.size_around mirrors.text_eq mirrors.span_eq, ?_⟩
    exact { mirrors with last_eq, text_eq := rfl, span_eq := by rw [utf8ByteSize_sized]; rfl }

theorem follows_push (text : String) : Follows (modify (·.push text)) (modify (·.push text)) :=
  follows_modify fun mirrors => mirrors.push text

theorem follows_pushBlank : Follows (modify (·.pushBlank)) (modify (·.pushBlank)) :=
  follows_modify Mirrors.pushBlank

theorem follows_bindPath (path : String) : Follows (Writing.bindPath path) (Drafting.bindPath path) :=
  follows_kind fun kind => follows_bind (kind.bindPath path)

theorem follows_bindValue (path suffix : String) (value : Value) :
    Follows (Writing.bindValue path suffix value) (Drafting.bindValue path suffix value) :=
  follows_kind fun kind => follows_bind (kind.bindValue path suffix value)

theorem follows_reference (path : String) : Follows (Writing.reference path) (Drafting.reference path) :=
  (follows_bindPath path).andThen fun text => follows_modify fun mirrors => mirrors.pushReference text

/-- A reference behind a blank, and a text behind it. -/
theorem follows_behindBlank (path text : String) :
    Follows (do modify (·.pushBlank); Writing.reference path; modify (·.push text))
      (do modify (·.pushBlank); Drafting.reference path; modify (·.push text)) :=
  follows_pushBlank.andThen fun _ => (follows_reference path).andThen fun _ => follows_push text

theorem follows_compare (path : String) (comparison : Comparison) (value : Value) :
    Follows (Writing.compare path comparison value) (Drafting.compare path comparison value) :=
  (follows_bindValue path "" value).andThen fun _ => follows_behindBlank path _

theorem follows_call (function : AttributeFunction) (path : String) (value : Option Value) :
    Follows (Writing.call function path value) (Drafting.call function path value) := by
  have called (text : String) : Follows
      (do
        modify (·.pushBlank)
        modify (·.push (function.text ++ "("))
        Writing.reference path
        modify (·.push text))
      (do
        modify (·.pushBlank)
        modify (·.push (function.text ++ "("))
        Drafting.reference path
        modify (·.push text)) :=
    follows_pushBlank.andThen fun _ => (follows_push _).andThen fun _ =>
      (follows_reference path).andThen fun _ => follows_push text
  cases value with
  | none =>
    refine (follows_pure none).andThen fun placeholder => ?_
    cases placeholder <;> exact called _
  | some value =>
    refine ((follows_bindValue path "" value).map some).andThen fun placeholder => ?_
    cases placeholder <;> exact called _

theorem follows_between (path : String) (values : List Value) :
    Follows (Writing.between path values) (Drafting.between path values) := by
  unfold Writing.between Drafting.between
  match values with
  | [low, high] =>
    exact (follows_bindValue path "_start" low).andThen fun _ =>
      (follows_bindValue path "_end" high).andThen fun _ => follows_behindBlank path _
  | [] | [_] | _ :: _ :: _ :: _ => exact follows_throw _

theorem follows_bindNumbered (path : String) (first : Nat) (values : List Value) :
    Follows (Writing.bindNumbered path first values) (Drafting.bindNumbered path first values) := by
  induction values generalizing first with
  | nil => exact follows_pure []
  | cons value values inductionHypothesis =>
    exact (follows_bindValue path ("_" ++ first.repr) value).andThen fun placeholder =>
      (inductionHypothesis (first + 1)).andThen fun others => follows_pure (placeholder :: others)

theorem follows_inList (path : String) (values : List Value) :
    Follows (Writing.inList path values) (Drafting.inList path values) := by
  have bound : Follows
      (do
        let placeholders ← Writing.bindNumbered path 0 values
        modify (·.pushBlank)
        Writing.reference path
        modify (·.push (" IN (" ++ ", ".intercalate placeholders ++ ")")))
      (do
        let placeholders ← Drafting.bindNumbered path 0 values
        modify (·.pushBlank)
        Drafting.reference path
        modify (·.push (" IN (" ++ ", ".intercalate placeholders ++ ")"))) :=
    (follows_bindNumbered path 0 values).andThen fun _ => follows_behindBlank path _
  -- the check is a statement of its own, so what is bound and written stands behind both outcomes
  unfold Writing.inList Drafting.inList
  cases values.isEmpty with
  | true => exact (follows_throw _).andThen fun _ => bound
  | false => exact (follows_pure PUnit.unit).andThen fun _ => bound

theorem follows_negate : Follows Writing.negate Drafting.negate :=
  follows_modify fun {draft flat} mirrors => by
    rw [mirrors.isEmpty_eq]
    split
    · exact mirrors
    · next nonempty =>
      have negated_eq : negatedText flat.text = "NOT (" ++ draft.text ++ ")" := by
        rw [negatedText, mirrors.isEmpty_eq, if_neg nonempty, mirrors.text_eq]
      rw [negated_eq]
      exact mirrors.combine _

theorem follows_mergeVia (take : Binding Unit) (other : Draft) (connective : Connective) :
    Follows (Writing.mergeVia take other.text connective) (Drafting.mergeVia take other connective) := by
  unfold Writing.mergeVia Drafting.mergeVia
  change Follows (if other.isEmpty then _ else _) _
  split
  · exact follows_pure _
  · refine (follows_bind take).andThen fun _ => follows_modify fun mirrors => ?_
    rw [mirrors.isEmpty_eq, mirrors.text_eq]
    exact mirrors.combine _

theorem follows_mergeManyVia (take : Nat → Bindings → Binding Unit) (connective : Connective) (index : Nat)
    (others : List Draft) : Follows (Writing.mergeManyVia take connective index others)
      (Drafting.mergeManyVia take connective index others) := by
  induction others generalizing index with
  | nil => exact follows_pure ()
  | cons other others inductionHypothesis =>
    exact (follows_mergeVia (take index other.bindings) other connective).andThen fun _ =>
      inductionHypothesis (index + 1)

theorem follows_test (path : String) (attributeTest : AttributeTest) :
    Follows (Writing.test path attributeTest) (Condition.draftTest path attributeTest) := by
  induction attributeTest with
  | compare comparison value => exact follows_compare path comparison value
  | beginsWith | contains | hasType => exact follows_call _ path (some _)
  | present | absent => exact follows_call _ path none
  | between values => exact follows_between path values
  | inList values => exact follows_inList path values
  | size inner inductionHypothesis => exact inductionHypothesis.andThen fun _ => follows_size

end Writing

/-! ## Steps -/

inductive ExpressionStep where
  /-- Bind placeholders of the kind of the expression, and write nothing. -/
  | bind (step : ExpressionKind → Binding Unit)
  | draft (step : DraftStep)
  | mergeMany (others : List Draft) (connective : Connective)

namespace ExpressionStep

def perform : ExpressionStep → Drafting Unit
  | bind step => do Drafting.bind (step (← get).kind)
  | draft step => step.perform
  | mergeMany others connective => Drafting.mergeMany others connective

variable (take : Nat → Bindings → Binding Unit)

def performVia : ExpressionStep → Drafting Unit
  | bind step => do Drafting.bind (step (← get).kind)
  | draft step => step.performVia (take 0)
  | mergeMany others connective => Drafting.mergeManyVia take connective 0 others

theorem perform_eq (step : ExpressionStep) : step.perform = step.performVia fun _ => Binding.all := by
  cases step with
  | bind => rfl
  | draft step => exact step.perform_eq
  | mergeMany others connective => exact Drafting.mergeMany_eq_mergeManyVia connective others 0

def writeVia : ExpressionStep → Writing Unit
  | bind step => do Writing.bind (step (← get).kind)
  | draft (.test path attributeTest) => Writing.test path attributeTest
  | draft .size => Writing.size
  | draft .negate => Writing.negate
  | draft (.exclude other) => Writing.mergeVia (take 0 other.bindings) (negatedText other.text) .and
  | draft (.merge other connective) => Writing.mergeVia (take 0 other.bindings) other.text connective
  | mergeMany others connective => Writing.mergeManyVia take connective 0 others

theorem text_negated (other : Draft) : (Drafting.negate.run.run other).2.text = negatedText other.text := by
  change (if other.isEmpty then other else _).text = if other.isEmpty then other.text else _
  split
  · rfl
  · simp [Draft.text, Draft.withText]

/-- Whatever a step does, both drafts agree on it. -/
theorem follows (step : ExpressionStep) : Follows (step.writeVia take) (step.performVia take) := by
  cases step with
  | bind step => exact follows_kind fun kind => follows_bind (step kind)
  | mergeMany others connective => exact Writing.follows_mergeManyVia take connective 0 others
  | draft step =>
    cases step with
    | test path attributeTest => exact Writing.follows_test path attributeTest
    | size => exact Writing.follows_size
    | negate => exact Writing.follows_negate
    | exclude other =>
      rw [writeVia, ← text_negated]
      exact Writing.follows_mergeVia _ _ .and
    | merge other connective => exact Writing.follows_mergeVia _ other connective

variable {take}

/-- A step is a negation of a text, or joins one. -/
def Combines (before : Draft) : ExpressionStep → Prop
  | draft .negate => before.isEmpty = false
  | draft (.exclude other) | draft (.merge other _) => other.isEmpty = false
  | mergeMany others _ => ∃ other ∈ others, other.isEmpty = false
  | bind _ | draft (.test ..) | draft .size => False

section Combined

variable {before after : Draft}

theorem last_of_mergeVia {take : Binding Unit} {other : Draft} {connective : Connective}
    (run : Succeeds (Drafting.mergeVia take other connective) before () after) :
    after.last = if other.isEmpty then before.last else none := by
  unfold Drafting.mergeVia at run
  split at run
  · next isEmpty =>
    obtain ⟨-, rfl⟩ := succeeds_pure.1 run
    rw [if_pos isEmpty]
  · next nonempty =>
    obtain ⟨⟨⟩, _, -, runText⟩ := succeeds_bind.1 run
    obtain rfl := succeeds_modify.1 runText
    rw [if_neg nonempty]
    rfl

theorem last_of_mergeManyVia {connective : Connective} {others : List Draft} {index : Nat}
    (run : Succeeds (Drafting.mergeManyVia take connective index others) before () after)
    (combines : before.last = none ∨ ∃ other ∈ others, other.isEmpty = false) : after.last = none := by
  induction others generalizing before index with
  | nil =>
    obtain ⟨-, rfl⟩ := succeeds_pure.1 run
    simpa using combines
  | cons other others inductionHypothesis =>
    obtain ⟨⟨⟩, middle, runFirst, runOthers⟩ := succeeds_bind.1 run
    refine inductionHypothesis runOthers ?_
    rw [last_of_mergeVia runFirst]
    rcases combines with none | ⟨joined, isJoined, nonempty⟩
    · exact .inl (by rw [none, ite_self])
    · rcases List.mem_cons.1 isJoined with rfl | isLater
      · exact .inl (by rw [nonempty]; rfl)
      · exact .inr ⟨joined, isLater, nonempty⟩

/-- Behind a step that combined something no reference is remembered. -/
theorem Combines.last_eq {step : ExpressionStep} (combines : step.Combines before)
    (run : Succeeds (step.performVia take) before () after) : after.last = none := by
  cases step with
  | bind => exact combines.elim
  | mergeMany others connective => exact last_of_mergeManyVia run (.inr combines)
  | draft step =>
    cases step with
    | test | size => exact combines.elim
    | negate =>
      have nonempty : before.isEmpty = false := combines
      obtain rfl := succeeds_modify.1 run
      rw [nonempty]
      rfl
    | exclude other =>
      have nonempty : other.isEmpty = false := combines
      have negated_nonempty : (Drafting.negate.run.run other).2.isEmpty = false := by
        rw [Draft.isEmpty, text_negated, negatedText, if_neg (by rwa [Bool.not_eq_true])]
        simp
      rw [last_of_mergeVia run, negated_nonempty]
      rfl
    | merge other connective =>
      have nonempty : other.isEmpty = false := combines
      rw [last_of_mergeVia run, nonempty]
      rfl

end Combined

end ExpressionStep

/-! ## Runs -/

variable (take : Nat → Nat → Bindings → Binding Unit)

def Draft.performAll : Nat → List ExpressionStep → Draft → List (Except Error Unit) × Draft
  | _, [], draft => ([], draft)
  | index, step :: rest, draft =>
    let (outcome, after) := (step.performVia (take index)).run.run draft
    let (outcomes, last) := performAll (index + 1) rest after
    (outcome :: outcomes, last)

def FlatDraft.writeAll : Nat → List ExpressionStep → FlatDraft →
    Option (List (Except Error Unit) × FlatDraft)
  | _, [], flat => some ([], flat)
  | index, step :: rest, flat => do
    let (outcome, after) ← (step.writeVia (take index)).run.run flat
    let (outcomes, last) ← writeAll (index + 1) rest after
    return (outcome :: outcomes, last)

theorem Mirrors.writeAll {draft : Draft} {flat : FlatDraft} (mirrors : Mirrors draft flat)
    (steps : List ExpressionStep) (index : Nat) :
    ∃ outcomes after flatAfter, draft.performAll take index steps = (outcomes, after) ∧
      flat.writeAll take index steps = some (outcomes, flatAfter) ∧ Mirrors after flatAfter := by
  induction steps generalizing draft flat index with
  | nil => exact ⟨[], draft, flat, rfl, rfl, mirrors⟩
  | cons step steps inductionHypothesis =>
    obtain ⟨outcome, middle, flatMiddle, drafted, written, mirrorsMiddle⟩ :=
      step.follows (take index) draft flat mirrors
    obtain ⟨outcomes, after, flatAfter, draftedAll, writtenAll, mirrorsAfter⟩ :=
      inductionHypothesis mirrorsMiddle (index + 1)
    refine ⟨outcome :: outcomes, after, flatAfter, ?_, ?_, mirrorsAfter⟩
    · rw [Draft.performAll, drafted]
      simp only [draftedAll]
    · rw [FlatDraft.writeAll, written]
      simp only [Option.bind_eq_bind, Option.bind_some, writtenAll]
      rfl

namespace FlatDraft

/-- A reference was emitted, and since then `size` was called so often and nothing else happened. -/
def Emitted (flat : FlatDraft) (reference : String) (count : Nat) : Prop :=
  ∃ earlier, flat.history = earlier ++ emitted reference :: .replicate count sized

/-- A flat draft with a reference has it between its offsets, wrapped as the record tells. -/
theorem exists_parts {draft : Draft} {flat : FlatDraft} (mirrors : Mirrors draft flat) {start stop : Nat}
    (span_eq : flat.span = some (start, stop)) :
    ∃ reference count, flat.Emitted reference count ∧
      flat.text = draft.before ++ wrapped reference count ++ draft.after ∧
      start = draft.before.utf8ByteSize ∧
      stop = (draft.before ++ wrapped reference count).utf8ByteSize := by
  rw [mirrors.span_eq] at span_eq
  obtain ⟨last, last_eq, offsets_eq⟩ := Option.map_eq_some_iff.1 span_eq
  obtain ⟨⟨reference, count⟩, recalled_eq, rfl⟩ := Option.map_eq_some_iff.1 (mirrors.last_eq ▸ last_eq)
  cases offsets_eq
  refine ⟨reference, count, recalled_eq_some_iff.1 recalled_eq, ?_, rfl, rfl⟩
  rw [mirrors.text_eq, Draft.text, last_eq, Option.getD_some]

theorem span_eq_none_iff {draft : Draft} {flat : FlatDraft} (mirrors : Mirrors draft flat) :
    flat.span = none ↔ recalled flat.history = none := by
  rw [mirrors.span_eq, Option.map_eq_none_iff, mirrors.last_eq, Option.map_eq_none_iff]

/-- Whatever is done with an expression, also by steps that fail and in whatever order bindings are
taken over, the one text and the three parts agree and no insertion goes wrong.  If a reference is
remembered, then its offsets lie inside the text and what stands between them is the reference emitted
last, wrapped as often as `size` was called since; `size` puts one more call around it and changes
nothing else of the text.  If none is remembered, which is so behind everything that was combined until
a reference is emitted again, `size` leaves the text as it is.  A test emits the reference to its own path,
or none if it fails. -/
theorem size_wraps_last (kind : ExpressionKind) (text : String) (bindings : Bindings)
    (steps : List ExpressionStep) :
    ∃ outcomes draft flat,
      Draft.performAll take 0 steps { kind, before := text, bindings } = (outcomes, draft) ∧
      writeAll take 0 steps { kind, text, bindings } = some (outcomes, flat) ∧
      (flat.kind = draft.kind ∧ flat.text = draft.text ∧ flat.bindings = draft.bindings) ∧
      (∀ start stop, flat.span = some (start, stop) → ∃ reference count before after,
        flat.Emitted reference count ∧
        flat.text = before ++ wrapped reference count ++ after ∧
        start = before.utf8ByteSize ∧ stop = start + (wrapped reference count).utf8ByteSize ∧
        stop ≤ flat.text.utf8ByteSize ∧
        Writing.size.run.run flat = some (.ok (), { flat with
          text := before ++ ("size(" ++ wrapped reference count ++ ")") ++ after
          span := some (start, stop + "size()".utf8ByteSize)
          history := flat.history ++ [sized] })) ∧
      (flat.span = none → (∀ reference count, ¬ flat.Emitted reference count) ∧
        Writing.size.run.run flat = some (.ok (), { flat with history := flat.history ++ [sized] })) ∧
      (∀ earlier later, flat.history = earlier ++ combined :: later →
        (∀ reference, emitted reference ∉ later) → flat.span = none) ∧
      (∀ takeNext step after, step.Combines draft →
        (ExpressionStep.writeVia takeNext step).run.run flat = some (.ok (), after) →
        after.span = none ∧
        Writing.size.run.run after = some (.ok (), { after with history := after.history ++ [sized] })) ∧
      ∀ takeNext path attributeTest outcome after,
        (ExpressionStep.writeVia takeNext (.draft (.test path attributeTest))).run.run flat =
          some (outcome, after) →
        match outcome with
        | .error _ => after.history = flat.history
        | .ok _ => after.Emitted (flat.kind.referenceText path) attributeTest.sizes := by
  have fresh : Mirrors { kind, before := text, bindings } { kind, text, bindings } :=
    ⟨rfl, by simp [Draft.text], rfl, rfl, rfl⟩
  obtain ⟨outcomes, draft, flat, drafted, written, mirrors⟩ := fresh.writeAll take steps 0
  refine ⟨outcomes, draft, flat, drafted, written,
    ⟨mirrors.kind_eq, mirrors.text_eq, mirrors.bindings_eq⟩, ?_, ?_, ?_, ?_, ?_⟩
  · intro start stop span_eq
    obtain ⟨reference, count, isLast, text_eq, rfl, rfl⟩ := exists_parts mirrors span_eq
    refine ⟨reference, count, _, _, isLast, text_eq, rfl, String.utf8ByteSize_append, ?_, ?_⟩
    · rw [text_eq, String.utf8ByteSize_append (s := draft.before ++ wrapped reference count)]
      exact Nat.le_add_right _ _
    · exact size_around text_eq span_eq
  · intro span_eq
    refine ⟨fun reference count isLast => ?_, size_nowhere span_eq⟩
    have recalled_eq := recalled_eq_some_iff.2 isLast
    rw [(span_eq_none_iff mirrors).1 span_eq] at recalled_eq
    cases recalled_eq
  · intro earlier later history_eq unemitted
    rw [span_eq_none_iff mirrors, history_eq]
    exact recalled_eq_none_of_combined unemitted
  · intro takeNext step after combines writtenNext
    obtain ⟨outcome, draftAfter, flatAfter, drafted, run, mirrorsAfter⟩ :=
      step.follows takeNext draft flat mirrors
    cases writtenNext.symm.trans run
    have span_eq : after.span = none := by rw [mirrorsAfter.span_eq, combines.last_eq drafted]; rfl
    exact ⟨span_eq, size_nowhere span_eq⟩
  · intro takeNext path attributeTest outcome after writtenNext
    obtain ⟨-, recorded⟩ :=
      Writing.recordsReference_test path attributeTest flat outcome after writtenNext
    cases outcome with
    | error error => exact recorded
    | ok answer => exact ⟨flat.history, recorded⟩

-- `ö` and `ß` take two bytes each; the range that is refused leaves no trace
example : (writeAll (fun _ _ => Binding.all) 0
    [.draft (.test "größe" (.size (.contains (.string "é")))), .draft (.test "größe" (.between [])),
      .draft .size] { kind := .filter }).map (fun (_, flat) => (flat.text, flat.span)) =
    some ("contains(size(size(#FE_größe)), :FE_größe)", some (9, 32)) := by
  decide +kernel

end FlatDraft

end SingleTable
