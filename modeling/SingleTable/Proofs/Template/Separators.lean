import Mathlib.Data.List.Chain
import SingleTable.Proofs.Template.Preference

/-!
# Placeholders kept apart

What is read of a text is what was written if nothing can be taken for a separator too early: a text
stands between any two placeholders (`Separated`), and over no value does the text behind it begin
before the value ends (`Discernible`).  Then no placeholder can take less than was written
(`unmistakable_of_separated`), however many there are, and what is found of an interpolated text is
exactly the values that it was made of (`matchText_of_interpolate`).
-/

namespace SingleTable.Template

variable {segments : List Segment} {attributes : Item}

/-! ## Separators -/

/-- No two placeholders stand next to each other; a text between them is not empty. -/
def Separated (segments : List Segment) : Prop :=
  segments.IsChain fun segment next => segment.name? = none ∨ next.name? = none

/-- The first time that a text can be found in a value followed by that text is behind the value. -/
def EndsAtFirst (value fixed : List Char) : Prop :=
  ∀ cut < value.length, ¬ fixed <+: value.drop cut ++ fixed

/-- The text behind a placeholder, if there is one, is not found earlier than it was written. -/
def TellsEnd (attributes : Item) : Segment → Segment → Prop
  | .placeholder raw, .literal fixed =>
    EndsAtFirst (textIn attributes (String.ofList (Text.trim raw))).toList fixed
  | _, _ => True

/-- No text behind a placeholder is found earlier than it was written. -/
def Discernible (attributes : Item) (segments : List Segment) : Prop :=
  segments.IsChain (TellsEnd attributes)

instance (segments : List Segment) : Decidable (Separated segments) :=
  inferInstanceAs (Decidable (segments.IsChain _))

instance (value fixed : List Char) : Decidable (EndsAtFirst value fixed) :=
  inferInstanceAs (Decidable (∀ cut < value.length, ¬ fixed <+: value.drop cut ++ fixed))

instance (attributes : Item) : ∀ segment next, Decidable (TellsEnd attributes segment next)
  | .placeholder _, .literal _ => inferInstanceAs (Decidable (EndsAtFirst _ _))
  | .placeholder _, .placeholder _ => isTrue trivial
  | .literal _, _ => isTrue trivial

instance (attributes : Item) (segments : List Segment) : Decidable (Discernible attributes segments) :=
  inferInstanceAs (Decidable (segments.IsChain _))

theorem ne_nil_of_mem_literal {text fixed : List Char} (isMember : .literal fixed ∈ literal text) :
    fixed ≠ [] := by
  rw [literal] at isMember
  split at isMember
  · cases isMember
  · next notEmpty =>
    obtain rfl := Segment.literal.inj (List.mem_singleton.1 isMember)
    simpa using notEmpty

/-! ## Reading back -/

theorem isPrefix_of_fits {fixed cs : List Char} (fits : Fits (.literal fixed :: segments) cs) :
    fixed <+: cs := by
  obtain ⟨_, ⟨⟩⟩ := fits
  exact List.prefix_append _ _

/-- If placeholders are kept apart, no placeholder can be read as taking less than was written. -/
theorem unmistakable_of_separated (separated : Separated segments)
    (discernible : Discernible attributes segments)
    (noBreak : ∀ taken ∈ texts attributes segments, '\n' ∉ taken) :
    Unmistakable segments (texts attributes segments) := by
  induction segments with
  | nil => trivial
  | cons segment rest inductionHypothesis =>
    have ofRest := inductionHypothesis separated.tail discernible.tail
    rcases segment with fixed | raw
    · exact ofRest noBreak
    · obtain ⟨noBreakHere, noBreak⟩ := List.forall_mem_cons.1 noBreak
      rcases rest with _ | ⟨fixed | nextRaw, rest⟩
      · exact noBreakHere
      · refine ⟨fun cut isShort _ fits => ?_, fun _ => ofRest noBreak⟩
        have endsAtFirst : TellsEnd attributes (.placeholder raw) (.literal fixed) :=
          (List.isChain_cons_cons.1 discernible).1
        refine endsAtFirst cut isShort ?_
        have early := isPrefix_of_fits fits
        rw [lay, ← List.append_assoc] at early
        exact List.prefix_of_prefix_length_le early (List.prefix_append _ _) (by simp)
      · exact absurd (List.isChain_cons_cons.1 separated).1 (by simp [Segment.name?])

/-- A template lies along what was written if no value breaks the line. -/
theorem lays_texts (noBreak : ∀ taken ∈ texts attributes segments, '\n' ∉ taken) :
    Lays segments (texts attributes segments) (lay segments (texts attributes segments)) := by
  induction segments with
  | nil => exact .done []
  | cons segment rest inductionHypothesis =>
    rcases segment with fixed | raw
    · exact .literal fixed (inductionHypothesis noBreak)
    · obtain ⟨noBreakHere, noBreak⟩ := List.forall_mem_cons.1 noBreak
      exact .placeholder noBreakHere (inductionHypothesis noBreak)

/-- If placeholders are kept apart, what was written is read back. -/
theorem reading?_lay_texts (separated : Separated segments)
    (discernible : Discernible attributes segments)
    (noBreak : ∀ taken ∈ texts attributes segments, '\n' ∉ taken) :
    reading? segments (lay segments (texts attributes segments)) = some (texts attributes segments) := by
  obtain ⟨reading, found⟩ := Option.isSome_iff_exists.1 (isSome_reading?_of_lays (lays_texts noBreak))
  have unmistakable := unmistakable_of_separated separated discernible noBreak
  have same := (reading?_lay_iff (List.length_map _)).2 unmistakable reading found
  rw [found, same, texts]

/-- Of the texts of attributes the first placeholder of a name takes that of the name. -/
theorem textOf?_texts (attributes : Item) (segments : List Segment) (name : String) :
    textOf? segments (texts attributes segments) name =
      if name ∈ segments.filterMap (·.name?) then some (textIn attributes name) else none := by
  rw [textOf?, texts, ← List.map_prod_left_eq_zip]
  split
  · next isName => rw [List.lookup_graph _ isName, Option.map_some, String.ofList_toList]
  · next notName =>
    rw [Option.map_eq_none_iff, List.lookup_eq_none_iff]
    rintro _ isPair
    obtain ⟨other, isOther, rfl⟩ := List.mem_map.1 isPair
    simpa using fun same : name = other => notName (same ▸ isOther)

/-- What is found of an interpolated text, if its placeholders are kept apart and no value breaks the
line, is each of its names with the text that it was made of, and nothing else. -/
theorem matchText_of_interpolate {source rendered : String}
    (interpolated : (text source).interpolate .strict attributes = .ok (.string rendered))
    (separated : Separated (Template.segments source.toList))
    (discernible : Discernible attributes (Template.segments source.toList))
    (noBreak : ∀ name ∈ (text source).names, '\n' ∉ (textIn attributes name).toList) (name : String) :
    (name ∈ (text source).names → ∃ value shown, attributes.present? name = some value ∧
      value.keyText? = some shown ∧
      (matchText source rendered (text source).names).get? name = some shown) ∧
    (name ∉ (text source).names → (matchText source rendered (text source).names).get? name = none) := by
  obtain ⟨cs, isRendered, answer⟩ := map_eq_ok.1 interpolated
  obtain rfl : String.ofList cs = rendered := Value.string.inj answer
  have mem_names : ∀ {name}, name ∈ (text source).names ↔
      name ∈ (Template.segments source.toList).filterMap (·.name?) := List.mem_eraseDups
  have isRead := reading?_lay_texts separated discernible
    (List.forall_mem_map.2 fun name isName => noBreak name (mem_names.2 isName))
  rw [lay_texts isRendered] at isRead
  have found : (matchText source (String.ofList cs) (text source).names).get? name =
      if name ∈ (text source).names then some (textIn attributes name) else none := by
    rw [get?_matchText (by rwa [String.toList_ofList]), textOf?_texts]
    simp only [mem_names]
    split <;> rfl
  constructor
  · intro isName
    obtain ⟨value, shown, value_eq, shown_eq⟩ := text_of_render isRendered isName
    refine ⟨value, shown, value_eq, shown_eq, ?_⟩
    rw [found, if_pos isName, textIn, value_eq, Option.bind_some, shown_eq, Option.getD_some]
  · intro notName
    rw [found, if_neg notName]

def twiceOwned : String := "\x7b\x7borg\x7d\x7d##\x7b\x7bid\x7d\x7d#\x7b\x7borg\x7d\x7d."

def ownedSeven : Item := .ofList [("id", .number "7"), ("org", .string "a#b")]

theorem matchText_of_interpolate_twiceOwned :
    (matchText twiceOwned "a#b##7#a#b." (text twiceOwned).names).get? "org" = some "a#b" ∧
      (matchText twiceOwned "a#b##7#a#b." (text twiceOwned).names).get? "id" = some "7" := by
  have isFound : ∀ {name shown : String}, name ∈ (text twiceOwned).names →
      (ownedSeven.present? name).bind (·.keyText?) = some shown →
      (matchText twiceOwned "a#b##7#a#b." (text twiceOwned).names).get? name = some shown := by
    intro name shown isName shown_eq
    have interpolated : (text twiceOwned).interpolate .strict ownedSeven = .ok (.string "a#b##7#a#b.") := by
      decide +kernel
    obtain ⟨value, _, value_eq, text_eq, found⟩ := (matchText_of_interpolate interpolated
      (by decide +kernel) (by decide +kernel) (by decide +kernel) name).1 isName
    rwa [← shown_eq, value_eq, Option.bind_some, text_eq]
  exact ⟨isFound (by decide +kernel) (by decide +kernel), isFound (by decide +kernel) (by decide +kernel)⟩

end SingleTable.Template
