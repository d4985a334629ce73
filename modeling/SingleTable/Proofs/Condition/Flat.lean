import Mathlib.Data.List.Induction
import SingleTable.Proofs.Expression.Bindings

/-!
# Drafts that keep one text

A draft keeps its text in three parts, so that `size` can wrap the reference in the middle.  A flat
draft has one text and remembers the reference by the offsets of its two ends, counted in bytes; `size`
inserts at these offsets, which goes wrong if one of them lies inside a character or behind the end.

A flat draft also keeps a record of what happened to references.  No step reads it; it says which
reference was emitted last (`recalled_eq_some_iff`).  A test that succeeds records the reference to its
own path, and one that fails records none (`Writing.recordsReference_test`).
-/

namespace SingleTable

/-! ## Offsets into a text -/

/-- Part characters where the first part has so many bytes.  No parts meet inside a character or
behind the end. -/
def splitBytes? : List Char → Nat → Option (List Char × List Char)
  | text, 0 => some ([], text)
  | [], _ + 1 => none
  | c :: rest, offset + 1 =>
    if c.utf8Size ≤ offset + 1 then
      (splitBytes? rest (offset + 1 - c.utf8Size)).map fun (before, after) => (c :: before, after)
    else none

def insertAt? (text : String) (offset : Nat) (piece : String) : Option String :=
  (splitBytes? text.toList offset).map fun (before, after) =>
    String.ofList before ++ piece ++ String.ofList after

theorem splitBytes?_cons (c : Char) (rest : List Char) (offset : Nat) :
    splitBytes? (c :: rest) (c.utf8Size + offset) =
      (splitBytes? rest offset).map fun (before, after) => (c :: before, after) := by
  obtain ⟨size, size_eq⟩ := Nat.exists_eq_add_of_lt c.utf8Size_pos
  have sum_eq : c.utf8Size + offset = (size + offset) + 1 := by omega
  have left_eq : size + offset + 1 - c.utf8Size = offset := by omega
  rw [sum_eq, splitBytes?, if_pos (by omega), left_eq]

theorem splitBytes?_append (before after : List Char) :
    splitBytes? (before ++ after) (String.ofList before).utf8ByteSize = some (before, after) := by
  induction before with
  | nil => cases after <;> rfl
  | cons c before inductionHypothesis =>
    rw [String.ofList_cons, String.utf8ByteSize_append, String.utf8ByteSize_singleton,
      List.cons_append, splitBytes?_cons, inductionHypothesis]
    rfl

/-- Behind a text, an insertion stands between it and what follows. -/
theorem insertAt?_append (before after piece : String) :
    insertAt? (before ++ after) before.utf8ByteSize piece = some (before ++ piece ++ after) := by
  have split_eq := splitBytes?_append before.toList after.toList
  rw [String.ofList_toList] at split_eq
  simp only [insertAt?, String.toList_append, split_eq, Option.map_some, String.ofList_toList]

/-! ## The record of references -/

/-- What may happen to the reference emitted last. -/
inductive ReferenceEvent where
  | emitted (reference : String)
  | sized
  | combined
  deriving DecidableEq

namespace ReferenceEvent

/-- The reference emitted last and how often `size` was called on it, after one more event. -/
def lastAfter : Option (String × Nat) → ReferenceEvent → Option (String × Nat)
  | _, emitted reference => some (reference, 0)
  | last, sized => last.map fun (reference, count) => (reference, count + 1)
  | _, combined => none

end ReferenceEvent

open ReferenceEvent

/-- The reference emitted last and how often `size` was called on it, unless something was combined
since. -/
def recalled (history : List ReferenceEvent) : Option (String × Nat) := history.foldl lastAfter none

@[simp] theorem recalled_concat (history : List ReferenceEvent) (event : ReferenceEvent) :
    recalled (history ++ [event]) = lastAfter (recalled history) event := by
  simp [recalled]

theorem recalled_emitted (earlier : List ReferenceEvent) (reference : String) (count : Nat) :
    recalled (earlier ++ emitted reference :: .replicate count sized) = some (reference, count) := by
  induction count with
  | zero => simp [lastAfter]
  | succ count inductionHypothesis =>
    rw [List.replicate_succ', ← List.cons_append, ← List.append_assoc, recalled_concat,
      inductionHypothesis]
    rfl

/-- A reference is recalled if nothing but calls of `size` came after it. -/
theorem recalled_eq_some_iff {history : List ReferenceEvent} {reference : String} {count : Nat} :
    recalled history = some (reference, count) ↔
      ∃ earlier, history = earlier ++ emitted reference :: .replicate count sized := by
  refine ⟨fun recalled_eq => ?_, fun ⟨earlier, history_eq⟩ => history_eq ▸ recalled_emitted _ _ _⟩
  induction history using List.reverseRecOn generalizing count with
  | nil => cases recalled_eq
  | append_singleton history event inductionHypothesis =>
    rw [recalled_concat] at recalled_eq
    cases event with
    | emitted other =>
      cases recalled_eq
      exact ⟨history, rfl⟩
    | sized =>
      obtain ⟨⟨_, count⟩, last_eq, pair_eq⟩ := Option.map_eq_some_iff.1 recalled_eq
      cases pair_eq
      obtain ⟨earlier, rfl⟩ := inductionHypothesis last_eq
      exact ⟨earlier, by rw [List.replicate_succ', List.append_assoc, List.cons_append]⟩
    | combined => cases recalled_eq

/-- No reference is recalled behind a combination if none was emitted since. -/
theorem recalled_eq_none_of_combined {earlier later : List ReferenceEvent}
    (unemitted : ∀ reference, emitted reference ∉ later) :
    recalled (earlier ++ combined :: later) = none := by
  induction later using List.reverseRecOn with
  | nil => simp [lastAfter]
  | append_singleton later event inductionHypothesis =>
    have recalled_eq := inductionHypothesis fun reference isLater => unemitted reference (by simp [isLater])
    rw [← List.cons_append, ← List.append_assoc, recalled_concat, recalled_eq]
    cases event with
    | emitted reference => exact absurd (by simp) (unemitted reference)
    | sized | combined => rfl

def wrapped (reference : String) : Nat → String
  | 0 => reference
  | count + 1 => "size(" ++ wrapped reference count ++ ")"

/-! ## Flat drafts -/

/-- An expression under construction that keeps one text. -/
structure FlatDraft where
  kind : ExpressionKind
  /-- The text written so far. -/
  text : String := ""
  /-- The offsets of both ends of the reference emitted last, wrapped as it is by then. -/
  span : Option (Nat × Nat) := none
  bindings : Bindings := {}
  /-- What happened to references; no step reads it. -/
  history : List ReferenceEvent := []
  deriving DecidableEq

/-- A computation that writes on a flat draft and may fail; the draft survives a failure, but not an
insertion that goes wrong. -/
abbrev Writing (α : Type) := ExceptT Error (StateT FlatDraft Option) α

namespace FlatDraft

def push (flat : FlatDraft) (text : String) : FlatDraft := { flat with text := flat.text ++ text }

def pushBlank (flat : FlatDraft) : FlatDraft :=
  match flat.text.toList.getLast? with
  | none => flat
  | some c => if c = ' ' ∨ c = '(' then flat else flat.push " "

def pushReference (flat : FlatDraft) (reference : String) : FlatDraft :=
  { flat with
    text := flat.text ++ reference
    span := some (flat.text.utf8ByteSize, (flat.text ++ reference).utf8ByteSize)
    history := flat.history ++ [emitted reference] }

def combine (flat : FlatDraft) (text : String) : FlatDraft :=
  { flat with text, span := none, history := flat.history ++ [combined] }

end FlatDraft

def negatedText (text : String) : String := if text.isEmpty then text else "NOT (" ++ text ++ ")"

namespace Writing

def bind {α : Type} (step : Binding α) : Writing α := fun flat =>
  let (result, bindings) := step flat.bindings
  some (result, { flat with bindings })

def bindPath (path : String) : Writing String := do
  bind ((← get).kind.bindPath path)

def bindValue (path suffix : String) (value : Value) : Writing String := do
  bind ((← get).kind.bindValue path suffix value)

def reference (path : String) : Writing Unit := do
  let text ← bindPath path
  modify (·.pushReference text)

def compare (path : String) (comparison : Comparison) (value : Value) : Writing Unit := do
  let placeholder ← bindValue path "" value
  modify (·.pushBlank)
  reference path
  modify (·.push (" " ++ comparison.symbol ++ " " ++ placeholder))

def call (function : AttributeFunction) (path : String) (value : Option Value) : Writing Unit := do
  let placeholder ← match value with
    | none => pure none
    | some value => some <$> bindValue path "" value
  modify (·.pushBlank)
  modify (·.push (function.text ++ "("))
  reference path
  match placeholder with
  | none => modify (·.push ")")
  | some placeholder => modify (·.push (", " ++ placeholder ++ ")"))

def between (path : String) (values : List Value) : Writing Unit := do
  match values with
  | [low, high] =>
    let low ← bindValue path "_start" low
    let high ← bindValue path "_end" high
    modify (·.pushBlank)
    reference path
    modify (·.push (" BETWEEN " ++ low ++ " AND " ++ high))
  | _ => throw (.rangeArity .between path values.length)

def bindNumbered (path : String) : Nat → List Value → Writing (List String)
  | _, [] => return []
  | n, value :: rest => do
    let placeholder ← bindValue path ("_" ++ n.repr) value
    return placeholder :: (← bindNumbered path (n + 1) rest)

def inList (path : String) (values : List Value) : Writing Unit := do
  if values.isEmpty then
    throw (.rangeArity .inList path 0)
  let placeholders ← bindNumbered path 0 values
  modify (·.pushBlank)
  reference path
  modify (·.push (" IN (" ++ ", ".intercalate placeholders ++ ")"))

/-- Wrap the reference emitted last in a call of `size`.  What goes behind it is inserted first, so that
the offset of its start still counts. -/
def size : Writing Unit := fun flat =>
  match flat.span with
  | none => some (.ok (), { flat with history := flat.history ++ [sized] })
  | some (start, stop) => do
    let closed ← insertAt? flat.text stop ")"
    let text ← insertAt? closed start "size("
    return (.ok (), { flat with
      text
      span := some (start, stop + "size()".utf8ByteSize)
      history := flat.history ++ [sized] })

def negate : Writing Unit :=
  modify fun flat => if flat.text.isEmpty then flat else flat.combine (negatedText flat.text)

def mergeVia (take : Binding Unit) (other : String) (connective : Connective) : Writing Unit := do
  if other.isEmpty then
    return
  bind take
  modify fun flat =>
    flat.combine
      (if flat.text.isEmpty then other
        else "(" ++ flat.text ++ ") " ++ connective.text ++ " (" ++ other ++ ")")

def mergeManyVia (take : Nat → Bindings → Binding Unit) (connective : Connective) :
    Nat → List Draft → Writing Unit
  | _, [] => pure ()
  | index, other :: rest => do
    mergeVia (take index other.bindings) other.text connective
    mergeManyVia take connective (index + 1) rest

def test (path : String) : AttributeTest → Writing Unit
  | .compare comparison value => compare path comparison value
  | .beginsWith value => call .beginsWith path (some value)
  | .contains value => call .contains path (some value)
  | .between values => between path values
  | .inList values => inList path values
  | .present => call .present path none
  | .absent => call .absent path none
  | .hasType code => call .hasType path (some (.string code))
  | .size inner => do
    test path inner
    size

end Writing

/-! ## What a test records -/

namespace Writing

theorem run_bind {α β : Type} (writing : Writing α) (next : α → Writing β) (flat : FlatDraft) :
    (writing >>= next).run.run flat =
      (writing.run.run flat).bind fun (outcome, flat) => (ExceptT.bindCont next outcome).run flat := rfl

/-- A sequence either fails in its first part, or it goes on from what that leaves. -/
theorem run_bind_cases {α β : Type} {first : Writing α} {second : α → Writing β} {flat after : FlatDraft}
    {outcome : Except Error β} (run : (first >>= second).run.run flat = some (outcome, after)) :
    (∃ error, first.run.run flat = some (.error error, after) ∧ outcome = .error error) ∨
      ∃ answer middle, first.run.run flat = some (.ok answer, middle) ∧
        (second answer).run.run middle = some (outcome, after) := by
  rw [run_bind] at run
  obtain ⟨⟨answer, middle⟩, runFirst, rest⟩ := Option.bind_eq_some_iff.1 run
  cases answer with
  | error error =>
    cases rest
    exact .inl ⟨error, runFirst, rfl⟩
  | ok answer => exact .inr ⟨answer, middle, runFirst, rest⟩

def RecordsNothing {α : Type} (writing : Writing α) : Prop :=
  ∀ flat outcome after, writing.run.run flat = some (outcome, after) →
    after.kind = flat.kind ∧ after.history = flat.history

/-- A computation that emits the reference to a path and calls `size` on it so often.  If it fails it
records nothing. -/
def RecordsReference (path : String) (count : Nat) (writing : Writing Unit) : Prop :=
  ∀ flat outcome after, writing.run.run flat = some (outcome, after) →
    after.kind = flat.kind ∧
      match outcome with
      | .error _ => after.history = flat.history
      | .ok _ => after.history =
          flat.history ++ emitted (flat.kind.referenceText path) :: .replicate count sized

section Records

variable {α β : Type} {path : String} {count : Nat}

theorem recordsNothing_pure (answer : α) : RecordsNothing (pure answer) := by
  rintro flat _ _ ⟨⟩
  exact ⟨rfl, rfl⟩

theorem recordsNothing_throw (error : Error) : RecordsNothing (throw error : Writing α) := by
  rintro flat _ _ ⟨⟩
  exact ⟨rfl, rfl⟩

theorem recordsNothing_bind (step : Binding α) : RecordsNothing (bind step) := by
  rintro flat _ _ ⟨⟩
  exact ⟨rfl, rfl⟩

theorem recordsNothing_bindValue (path suffix : String) (value : Value) :
    RecordsNothing (bindValue path suffix value) :=
  fun flat => recordsNothing_bind (flat.kind.bindValue path suffix value) flat

theorem recordsNothing_push (text : String) : RecordsNothing (modify (·.push text)) := by
  rintro flat _ _ ⟨⟩
  exact ⟨rfl, rfl⟩

theorem recordsNothing_pushBlank : RecordsNothing (modify (·.pushBlank)) := by
  rintro flat _ _ ⟨⟩
  change flat.pushBlank.kind = flat.kind ∧ flat.pushBlank.history = flat.history
  unfold FlatDraft.pushBlank
  split
  · exact ⟨rfl, rfl⟩
  · split <;> exact ⟨rfl, rfl⟩

theorem RecordsNothing.andThen {first : Writing α} {second : α → Writing β}
    (nothing : RecordsNothing first) (others : ∀ answer, RecordsNothing (second answer)) :
    RecordsNothing (first >>= second) := by
  intro flat outcome after run
  rcases run_bind_cases run with ⟨error, failed, rfl⟩ | ⟨answer, middle, runFirst, runSecond⟩
  · exact nothing flat (.error error) after failed
  · obtain ⟨kind_eq, history_eq⟩ := nothing flat (.ok answer) middle runFirst
    obtain ⟨kindAfter_eq, historyAfter_eq⟩ := others answer middle outcome after runSecond
    exact ⟨kindAfter_eq.trans kind_eq, historyAfter_eq.trans history_eq⟩

theorem RecordsNothing.before {first : Writing α} {second : α → Writing Unit}
    (nothing : RecordsNothing first) (records : ∀ answer, RecordsReference path count (second answer)) :
    RecordsReference path count (first >>= second) := by
  intro flat outcome after run
  rcases run_bind_cases run with ⟨error, failed, rfl⟩ | ⟨answer, middle, runFirst, runSecond⟩
  · exact nothing flat (.error error) after failed
  · obtain ⟨kind_eq, history_eq⟩ := nothing flat (.ok answer) middle runFirst
    have recorded := records answer middle outcome after runSecond
    rwa [kind_eq, history_eq] at recorded

/-- What follows a reference must not fail, else the reference is recorded by a failure. -/
theorem RecordsReference.followed {first : Writing Unit} (records : RecordsReference path count first)
    (text : String) : RecordsReference path count (do first; modify (·.push text)) := by
  intro flat outcome after run
  rcases run_bind_cases run with ⟨error, failed, rfl⟩ | ⟨answer, middle, runFirst, ⟨⟩⟩
  · exact records flat (.error error) after failed
  · exact records flat (.ok answer) middle runFirst

theorem recordsReference_reference (path : String) : RecordsReference path 0 (reference path) := by
  intro flat outcome after run
  rcases run_bind_cases run with ⟨error, failed, rfl⟩ | ⟨text, middle, runPath, ⟨⟩⟩
  · exact recordsNothing_bind (flat.kind.bindPath path) flat (.error error) after failed
  · obtain ⟨kind_eq, history_eq⟩ :=
      recordsNothing_bind (flat.kind.bindPath path) flat (.ok text) middle runPath
    have text_eq : (flat.kind.bindPath path flat.bindings).1 = .ok text :=
      congrArg Prod.fst (Option.some.inj runPath)
    obtain ⟨-, rfl, -⟩ := ExpressionKind.succeeds_bindPath (Prod.ext text_eq rfl)
    exact ⟨kind_eq, congrArg (· ++ [emitted (flat.kind.referenceText path)]) history_eq⟩

/-- `size` never fails, and is recorded whether or not there is something to wrap. -/
theorem size_eq_some {flat after : FlatDraft} {outcome : Except Error Unit}
    (run : size.run.run flat = some (outcome, after)) :
    outcome = .ok () ∧ after.kind = flat.kind ∧
      after.history = flat.history ++ [ReferenceEvent.sized] := by
  change size flat = some (outcome, after) at run
  unfold size at run
  split at run
  · cases run
    exact ⟨rfl, rfl, rfl⟩
  · obtain ⟨closed, -, rest⟩ := Option.bind_eq_some_iff.1 run
    obtain ⟨opened, -, rest⟩ := Option.bind_eq_some_iff.1 rest
    cases rest
    exact ⟨rfl, rfl, rfl⟩

theorem RecordsReference.sized {first : Writing Unit} (records : RecordsReference path count first) :
    RecordsReference path (count + 1) (do first; size) := by
  intro flat outcome after run
  rcases run_bind_cases run with ⟨error, failed, rfl⟩ | ⟨answer, middle, runFirst, runSize⟩
  · exact records flat (.error error) after failed
  · obtain ⟨kind_eq, history_eq⟩ := records flat (.ok answer) middle runFirst
    obtain ⟨rfl, kindAfter_eq, historyAfter_eq⟩ := size_eq_some runSize
    refine ⟨kindAfter_eq.trans kind_eq, ?_⟩
    rw [historyAfter_eq, history_eq, List.replicate_succ', List.append_assoc, List.cons_append]

/-- A reference behind a blank, and a text behind it. -/
theorem recordsReference_behindBlank (path text : String) :
    RecordsReference path 0 (do modify (·.pushBlank); reference path; modify (·.push text)) :=
  recordsNothing_pushBlank.before fun _ => (recordsReference_reference path).followed text

theorem recordsReference_call (function : AttributeFunction) (path : String) (value : Option Value) :
    RecordsReference path 0 (call function path value) := by
  have called (text : String) : RecordsReference path 0 (do
      modify (·.pushBlank)
      modify (·.push (function.text ++ "("))
      reference path
      modify (·.push text)) :=
    recordsNothing_pushBlank.before fun _ => (recordsNothing_push _).before fun _ =>
      (recordsReference_reference path).followed text
  cases value with
  | none =>
    refine (recordsNothing_pure none).before fun placeholder => ?_
    cases placeholder <;> exact called _
  | some value =>
    have bound := (recordsNothing_bindValue path "" value).andThen fun placeholder =>
      recordsNothing_pure (some placeholder)
    refine bound.before fun placeholder => ?_
    cases placeholder <;> exact called _

theorem recordsNothing_bindNumbered (path : String) (first : Nat) (values : List Value) :
    RecordsNothing (bindNumbered path first values) := by
  induction values generalizing first with
  | nil => exact recordsNothing_pure []
  | cons value values inductionHypothesis =>
    exact (recordsNothing_bindValue path ("_" ++ first.repr) value).andThen fun placeholder =>
      (inductionHypothesis (first + 1)).andThen fun others => recordsNothing_pure (placeholder :: others)

theorem recordsReference_throw (error : Error) : RecordsReference path count (throw error) := by
  rintro flat _ _ ⟨⟩
  exact ⟨rfl, rfl⟩

theorem recordsReference_between (path : String) (values : List Value) :
    RecordsReference path 0 (between path values) := by
  unfold between
  match values with
  | [low, high] =>
    exact (recordsNothing_bindValue path "_start" low).before fun _ =>
      (recordsNothing_bindValue path "_end" high).before fun _ => recordsReference_behindBlank path _
  | [] | [_] | _ :: _ :: _ :: _ => exact recordsReference_throw _

theorem recordsReference_inList (path : String) (values : List Value) :
    RecordsReference path 0 (inList path values) := by
  have bound : RecordsReference path 0 (do
      let placeholders ← bindNumbered path 0 values
      modify (·.pushBlank)
      reference path
      modify (·.push (" IN (" ++ ", ".intercalate placeholders ++ ")"))) :=
    (recordsNothing_bindNumbered path 0 values).before fun _ => recordsReference_behindBlank path _
  unfold inList
  cases values.isEmpty with
  | true => exact (recordsNothing_throw _).before fun _ => bound
  | false => exact (recordsNothing_pure PUnit.unit).before fun _ => bound

end Records

end Writing

def AttributeTest.sizes : AttributeTest → Nat
  | .size inner => inner.sizes + 1
  | _ => 0

/-- A test that succeeds emits the reference to its own path, and one that fails emits none. -/
theorem Writing.recordsReference_test (path : String) (attributeTest : AttributeTest) :
    RecordsReference path attributeTest.sizes (test path attributeTest) := by
  induction attributeTest with
  | compare comparison value =>
    exact (recordsNothing_bindValue path "" value).before fun _ => recordsReference_behindBlank path _
  | beginsWith | contains | hasType => exact recordsReference_call _ path (some _)
  | present | absent => exact recordsReference_call _ path none
  | between values => exact recordsReference_between path values
  | inList values => exact recordsReference_inList path values
  | size inner inductionHypothesis => exact inductionHypothesis.sized

end SingleTable
