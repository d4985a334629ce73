import SingleTable.Proofs.Expression.Demand
import SingleTable.Proofs.Expression.Resolution

/-!
# The placeholders of a text

A text mentions placeholders and a request binds them, and the two are kept apart: what a step
writes is a text, what it binds goes into a map.  `Grammar.Mentions` lists the placeholders that
the service finds in a text, `Bindings.Adds` those that a step binds.  Everything that is compiled
is made of references to paths and of value placeholders, and for these the two lists agree
(`mentions_referenceText` and `adds_bindPath`, `mentions_valuePlaceholder` and `adds_bindValue`).
-/

namespace SingleTable

namespace Grammar

/-! ## Mentioned placeholders -/

/-- A placeholder of an expression. -/
inductive Placeholder where
  /-- It stands for an attribute name. -/
  | name (text : String)
  /-- It stands for a value. -/
  | value (text : String)
  deriving DecidableEq, Repr

def Token.placeholder? : Token → Option Placeholder
  | .name text => some (.name text)
  | .value text => some (.value text)
  | _ => none

/-- The placeholders in a text, in order; there is no telling if the text cannot be read. -/
def placeholders? (text : String) : Option (List Placeholder) :=
  (tokens? text).map (List.filterMap Token.placeholder?)

/-- The service reads a text and finds some placeholders in it. -/
def Mentions (text : String) (mentioned : List Placeholder) : Prop :=
  placeholders? text = some mentioned

instance (text : String) (mentioned : List Placeholder) : Decidable (Mentions text mentioned) :=
  inferInstanceAs (Decidable (_ = _))

theorem Lexes.mentions {text : String} {tokens : List Token} (lexes : Lexes text tokens) :
    Mentions text (tokens.filterMap Token.placeholder?) :=
  Option.map_eq_some_iff.2 ⟨tokens, lexes, rfl⟩

theorem mentions_nothing : Mentions "" [] := rfl

section Pieces

variable {first mark second : String} {inFirst inSecond : List Placeholder}

theorem Mentions.append (mentionsFirst : Mentions first inFirst)
    (mentionsSecond : Mentions second inSecond) (apart : Apart first second) :
    Mentions (first ++ second) (inFirst ++ inSecond) := by
  obtain ⟨firstTokens, lexesFirst, rfl⟩ := Option.map_eq_some_iff.1 mentionsFirst
  obtain ⟨secondTokens, lexesSecond, rfl⟩ := Option.map_eq_some_iff.1 mentionsSecond
  rw [← List.filterMap_append]
  exact (Lexes.append lexesFirst lexesSecond apart).mentions

theorem Mentions.followed (mentionsFirst : Mentions first inFirst)
    (mentionsSecond : Mentions second inSecond) (opens : Opens second) :
    Mentions (first ++ second) (inFirst ++ inSecond) :=
  mentionsFirst.append mentionsSecond (.of_opens opens)

theorem Mentions.closed (mentionsFirst : Mentions first inFirst)
    (mentionsSecond : Mentions second inSecond) (closes : Closes first) :
    Mentions (first ++ second) (inFirst ++ inSecond) :=
  mentionsFirst.append mentionsSecond (.of_closes closes)

/-- Two texts with a mark between them that starts and ends with separators and mentions nothing. -/
theorem Mentions.joined (mentionsFirst : Mentions first inFirst) (mentionsMark : Mentions mark [])
    (mentionsSecond : Mentions second inSecond) (opens : Opens mark) (closes : Closes mark) :
    Mentions (first ++ mark ++ second) (inFirst ++ inSecond) := by
  have mentionsBoth := mentionsFirst.followed mentionsMark opens
  rw [List.append_nil] at mentionsBoth
  exact mentionsBoth.closed mentionsSecond (closes.prepend first)

/-- A text between an opening and a closing text that mention nothing. -/
theorem Mentions.enclosed {opening closing : String} (mentionsOpening : Mentions opening [])
    (mentionsFirst : Mentions first inFirst) (mentionsClosing : Mentions closing [])
    (closes : Closes opening) (opens : Opens closing) :
    Mentions (opening ++ first ++ closing) inFirst := by
  have mentionsBoth := (mentionsOpening.closed mentionsFirst closes).followed mentionsClosing opens
  rwa [List.nil_append, List.append_nil] at mentionsBoth

end Pieces

/-- Texts between marks mention what they mention one by one. -/
theorem Mentions.intercalate {α : Type} {mark : String} (mentionsMark : Mentions mark [])
    (opens : Opens mark) (closes : Closes mark) (textOf : α → String)
    (mentionedBy : α → List Placeholder) {elements : List α}
    (each : ∀ element ∈ elements, Mentions (textOf element) (mentionedBy element)) :
    Mentions (mark.intercalate (elements.map textOf)) (elements.flatMap mentionedBy) := by
  induction elements with
  | nil => exact mentions_nothing
  | cons first others inductionHypothesis =>
    have mentionsFirst := each first (by simp)
    have mentionsOthers := inductionHypothesis fun other isMember => each other (by simp [isMember])
    cases others with
    | nil => simpa using mentionsFirst
    | cons second others =>
      have mentionsAll := mentionsFirst.joined mentionsMark mentionsOthers opens closes
      rw [List.map_cons, List.map_cons, String.intercalate_cons_cons, List.flatMap_cons]
      simpa using mentionsAll

end Grammar

open Grammar

/-! ## Bound placeholders -/

def Demand.placeholder : Demand → Placeholder
  | .name placeholder _ => .name placeholder
  | .value placeholder _ => .value placeholder

namespace Bindings

/-- A placeholder stands for something. -/
def Binds (bindings : Bindings) : Placeholder → Prop
  | .name text => bindings.names.contains text = true
  | .value text => bindings.values.contains text = true

instance (bindings : Bindings) (placeholder : Placeholder) :
    Decidable (bindings.Binds placeholder) :=
  match placeholder with
  | .name text => inferInstanceAs (Decidable (bindings.names.contains text = true))
  | .value text => inferInstanceAs (Decidable (bindings.values.contains text = true))

@[simp] theorem not_binds_empty (placeholder : Placeholder) : ¬ Binds {} placeholder := by
  cases placeholder <;> simp [Binds, NameMap.contains]

def Adds (before after : Bindings) (placeholders : List Placeholder) : Prop :=
  ∀ placeholder, after.Binds placeholder ↔ before.Binds placeholder ∨ placeholder ∈ placeholders

variable {first second third : Bindings} {placeholders others : List Placeholder}

theorem Adds.refl (bindings : Bindings) : bindings.Adds bindings [] := by simp [Adds]

theorem Adds.trans (adds : first.Adds second placeholders) (addsOthers : second.Adds third others) :
    first.Adds third (placeholders ++ others) := by
  intro placeholder
  rw [addsOthers, adds, List.mem_append, or_assoc]

/-- Only which placeholders are added counts. -/
theorem Adds.congr (adds : first.Adds second placeholders)
    (same : ∀ placeholder, placeholder ∈ placeholders ↔ placeholder ∈ others) :
    first.Adds second others := by
  intro placeholder
  rw [adds, same]

/-- What is bound is what a text mentions, and some placeholders that it does not need. -/
def Accounts (bindings : Bindings) (text : String) (idle : List Placeholder) : Prop :=
  ∃ mentioned, Mentions text mentioned ∧ Adds {} bindings (mentioned ++ idle)

theorem binds_iff {bindings : Bindings} {placeholder : Placeholder} : bindings.Binds placeholder ↔
    ∃ demand, bindings.Grants demand ∧ demand.placeholder = placeholder := by
  constructor
  · intro binds
    cases placeholder with
    | name text =>
      obtain ⟨requested, isBound⟩ := Option.isSome_iff_exists.1 binds
      exact ⟨.name text requested, isBound, rfl⟩
    | value text =>
      obtain ⟨requested, isBound⟩ := Option.isSome_iff_exists.1 binds
      exact ⟨.value text requested, isBound, rfl⟩
  · rintro ⟨demand, granted, rfl⟩
    cases demand with
    | name text requested => exact Option.isSome_of_eq_some granted
    | value text requested => exact Option.isSome_of_eq_some granted

/-- Demands add the placeholders that they are about. -/
theorem Gains.adds {asked : List Demand} (gains : first.Gains asked second) :
    first.Adds second (asked.map Demand.placeholder) := by
  intro placeholder
  rw [binds_iff, binds_iff, List.mem_map, ← exists_or]
  refine exists_congr fun demand => ?_
  rw [gains, or_and_right]

end Bindings

/-- Taking bindings over adds exactly what they bind. -/
theorem Binding.adds_all {bindings before after : Bindings} {placeholders : List Placeholder}
    (bound : Bindings.Adds {} bindings placeholders)
    (run : Succeeds (all bindings) before () after) : before.Adds after placeholders := by
  obtain ⟨-, gains⟩ := (demands_all bindings _ _ _).1 run
  refine gains.adds.congr fun placeholder => ?_
  have isBound := bound placeholder
  simp only [Bindings.not_binds_empty, false_or] at isBound
  rw [← isBound, Bindings.binds_iff, List.mem_map]
  exact exists_congr fun demand => and_congr_left' Bindings.mem_demands

/-! ## Paths and values -/

namespace ExpressionKind

variable {kind : ExpressionKind} {path : String}

def placeholders (kind : ExpressionKind) (path : String) : List Placeholder :=
  (kind.references path).map fun reference => .name reference.placeholder

theorem mentions_referenceText (plain : Path.IsPlain path) :
    Mentions (kind.referenceText path) (kind.placeholders path) := by
  have isWordEmpty : IsWord "" := by decide
  have mentionsEach : ∀ reference ∈ kind.references path,
      Mentions (reference.placeholder ++ reference.indexes) [.name reference.placeholder] := by
    intro reference isMember
    obtain ⟨lexesName, indexes, allDigits, indexes_eq⟩ :=
      lexes_reference kind isWordEmpty plain reference isMember
    have noPlaceholders : (indexTokens indexes).filterMap Token.placeholder? = [] := by
      simp [indexTokens, List.filterMap_flatMap, Token.placeholder?]
    have mentions := (lexes_segment lexesName allDigits).mentions
    rw [List.filterMap_cons, noPlaceholders] at mentions
    rw [indexes_eq]
    exact mentions
  have mentionsDot : Mentions "." [] := by decide
  have mentionsAll := mentionsDot.intercalate opens_dot closes_dot
    (fun reference : Reference => reference.placeholder ++ reference.indexes)
    (fun reference => [.name reference.placeholder]) mentionsEach
  rwa [← List.map_eq_flatMap] at mentionsAll

theorem adds_bindPath {text : String} {before after : Bindings}
    (run : Succeeds (kind.bindPath path) before text after) :
    before.Adds after (kind.placeholders path) := by
  obtain ⟨-, gains⟩ := (kind.demands_bindPath path _ _ _).1 run
  have adds := gains.adds
  rwa [pathDemands, List.map_map] at adds

theorem mentions_valuePlaceholder {suffix : String} (plain : Path.IsPlain path)
    (isWord : IsWord suffix) :
    Mentions (kind.valuePlaceholder path suffix) [.value (kind.valuePlaceholder path suffix)] :=
  (lexes_valuePlaceholder plain isWord).mentions

theorem adds_bindValue {suffix text : String} {value : Value} {before after : Bindings}
    (run : Succeeds (kind.bindValue path suffix value) before text after) :
    before.Adds after [.value text] := by
  have notProjection : kind ≠ .projection := by
    rintro rfl
    obtain ⟨_, _, thrown, -⟩ := succeeds_bind.1 run
    exact not_succeeds_throw thrown
  obtain ⟨rfl, gains⟩ := (kind.demands_bindValue path notProjection suffix value _ _ _).1 run
  exact gains.adds

end ExpressionKind

end SingleTable
