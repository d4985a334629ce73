import Mathlib.Data.List.Forall2
import SingleTable.Proofs.Expression.Bindings
import SingleTable.Entity.Physical

/-!
# What an interpolation depends on

A template that has a value has the same value over all attributes that agree on the names it
refers to, whether it may be left out or not; and then all these names have scalar values.  It has
none because of one of its names (`Template.error_of_interpolate`), and an index is skipped only
because one of its names has no value.
-/

namespace SingleTable

namespace Template

theorem mem_namesOf {segments : List Segment} {name : String} :
    name ∈ namesOf segments ↔
      ∃ raw, Segment.placeholder raw ∈ segments ∧ String.ofList (Text.trim raw) = name := by
  simp only [namesOf, List.mem_eraseDups, List.mem_filterMap]
  constructor
  · rintro ⟨segment, isMember, name_eq⟩
    cases segment with
    | literal text => cases name_eq
    | placeholder raw => exact ⟨raw, isMember, by simpa [Segment.name?] using name_eq⟩
  · rintro ⟨raw, isMember, rfl⟩
    exact ⟨_, isMember, rfl⟩

variable {mode other : Completeness} {attributes others : Item}

theorem render_eq_ok {source : String} {segments : List Segment} {rendered : List Char}
    (same : ∀ name ∈ namesOf segments, attributes.present? name = others.present? name)
    (isRendered : render mode source attributes segments = .ok rendered) :
    render other source others segments = .ok rendered := by
  induction segments generalizing rendered with
  | nil => exact isRendered
  | cons segment segments inductionHypothesis =>
    have sameRest : ∀ name ∈ namesOf segments, attributes.present? name = others.present? name := by
      intro name isMember
      obtain ⟨raw, inSegments, name_eq⟩ := mem_namesOf.1 isMember
      exact same name (mem_namesOf.2 ⟨raw, by simp [inSegments], name_eq⟩)
    cases segment with
    | literal fixed =>
      obtain ⟨tail, isTail, rest⟩ := bind_eq_ok.1 isRendered
      exact bind_eq_ok.2 ⟨tail, inductionHypothesis sameRest isTail, rest⟩
    | placeholder raw =>
      have sameHere := same (String.ofList (Text.trim raw)) (mem_namesOf.2 ⟨raw, by simp, rfl⟩)
      simp only [render, ← sameHere] at isRendered ⊢
      cases value_eq : attributes.present? (String.ofList (Text.trim raw)) with
      | none => simp [value_eq] at isRendered
      | some value =>
        simp only [value_eq] at isRendered ⊢
        cases text_eq : value.keyText? with
        | none => simp [text_eq] at isRendered
        | some text =>
          simp only [text_eq] at isRendered ⊢
          obtain ⟨tail, isTail, rest⟩ := bind_eq_ok.1 isRendered
          exact bind_eq_ok.2 ⟨tail, inductionHypothesis sameRest isTail, rest⟩

theorem interpolate_eq_ok {template : Template} {value : Value}
    (same : ∀ name ∈ template.names, attributes.present? name = others.present? name)
    (isValue : template.interpolate mode attributes = .ok value) :
    template.interpolate other others = .ok value := by
  cases template with
  | text source =>
    simp only [interpolate] at isValue ⊢
    cases rendered_eq : render mode source attributes (segments source.toList) with
    | error error => simp [rendered_eq, Except.map] at isValue
    | ok rendered =>
      rw [rendered_eq] at isValue
      rw [render_eq_ok (fun name isMember => same name isMember) rendered_eq]
      exact isValue
  | copyOf attr =>
    have sameHere := same attr (by simp [names])
    simp only [interpolate, ← sameHere] at isValue ⊢
    exact isValue

theorem isScalar_of_keyText? {value : Value} {text : String} (text_eq : value.keyText? = some text) :
    value.isScalar = true := by
  cases value <;> first | rfl | cases text_eq

/-- A text is rendered only if all its names have values that have texts. -/
theorem text_of_render {source : String} {segments : List Segment} {rendered : List Char}
    (isRendered : render mode source attributes segments = .ok rendered) {name : String}
    (isMember : name ∈ namesOf segments) :
    ∃ value text, attributes.present? name = some value ∧ value.keyText? = some text := by
  obtain ⟨raw, inSegments, rfl⟩ := mem_namesOf.1 isMember
  induction segments generalizing rendered with
  | nil => simp at inSegments
  | cons segment segments inductionHypothesis =>
    have inRest : Segment.placeholder raw ∈ segments → ∀ {rendered},
        render mode source attributes segments = .ok rendered → ∃ value text,
          attributes.present? (String.ofList (Text.trim raw)) = some value ∧ value.keyText? = some text :=
      fun inSegments _ isRendered => inductionHypothesis isRendered inSegments
        (mem_namesOf.2 ⟨raw, inSegments, rfl⟩)
    cases segment with
    | literal fixed =>
      obtain ⟨tail, isTail, -⟩ := bind_eq_ok.1 isRendered
      exact inRest (by simpa using inSegments) isTail
    | placeholder first =>
      simp only [render] at isRendered
      cases value_eq : attributes.present? (String.ofList (Text.trim first)) with
      | none => simp [value_eq] at isRendered
      | some value =>
        simp only [value_eq] at isRendered
        cases text_eq : value.keyText? with
        | none => simp [text_eq] at isRendered
        | some text =>
          simp only [text_eq] at isRendered
          obtain ⟨tail, isTail, -⟩ := bind_eq_ok.1 isRendered
          rcases List.mem_cons.1 inSegments with same | inSegments
          · obtain rfl : raw = first := by simpa using same
            exact ⟨value, text, value_eq, text_eq⟩
          · exact inRest inSegments isTail

/-- A template has no other values than texts and copies of scalars. -/
theorem isScalar_of_interpolate {template : Template} {value : Value}
    (isValue : template.interpolate mode attributes = .ok value) : value.isScalar = true := by
  cases template with
  | text source =>
    obtain ⟨rendered, -, rfl⟩ := map_eq_ok.1 isValue
    rfl
  | copyOf attr =>
    simp only [interpolate] at isValue
    split at isValue
    · cases isValue
    · split at isValue
      · next isScalar => exact Except.ok.inj isValue ▸ isScalar
      · cases isValue

/-- A template has a value only if all its names have scalar values. -/
theorem present_of_interpolate {template : Template} {value : Value}
    (isValue : template.interpolate mode attributes = .ok value) {name : String}
    (isMember : name ∈ template.names) :
    ∃ value, attributes.present? name = some value ∧ value.isScalar = true := by
  cases template with
  | text source =>
    simp only [interpolate] at isValue
    cases rendered_eq : render mode source attributes (segments source.toList) with
    | error error => simp [rendered_eq, Except.map] at isValue
    | ok rendered =>
      obtain ⟨value, _, value_eq, text_eq⟩ := text_of_render rendered_eq isMember
      exact ⟨value, value_eq, isScalar_of_keyText? text_eq⟩
  | copyOf attr =>
    obtain rfl : name = attr := by simpa [names] using isMember
    simp only [interpolate] at isValue
    cases value_eq : attributes.present? name with
    | none => simp [value_eq] at isValue
    | some found =>
      simp only [value_eq] at isValue
      split at isValue
      · next isScalar => exact ⟨found, rfl, isScalar⟩
      · cases isValue

/-- Whether a template can be made of a value: a text needs its text, an alias copies scalars. -/
def renders (template : Template) (value : Value) : Bool :=
  if template.isAlias then value.isScalar else value.keyText?.isSome

theorem error_of_render {source : String} {segments : List Segment} {error : InterpolationError}
    (failed : render mode source attributes segments = .error error) :
    ∃ name ∈ namesOf segments,
      (attributes.present? name = none ∧ error = missing mode source name) ∨
        ∃ value, attributes.present? name = some value ∧ value.keyText? = none ∧
          error = .invalidValue name := by
  induction segments with
  | nil => cases failed
  | cons segment segments inductionHypothesis =>
    have later (failed : render mode source attributes segments = .error error) :
        ∃ name ∈ namesOf (segment :: segments),
          (attributes.present? name = none ∧ error = missing mode source name) ∨
            ∃ value, attributes.present? name = some value ∧ value.keyText? = none ∧
              error = .invalidValue name := by
      obtain ⟨name, isMember, cause⟩ := inductionHypothesis failed
      obtain ⟨raw, inSegments, name_eq⟩ := mem_namesOf.1 isMember
      exact ⟨name, mem_namesOf.2 ⟨raw, by simp [inSegments], name_eq⟩, cause⟩
    cases segment with
    | literal fixed =>
      rcases bind_eq_error.1 failed with failed | ⟨tail, -, answer⟩
      · exact later failed
      · cases answer
    | placeholder raw =>
      have isMember : String.ofList (Text.trim raw) ∈ namesOf (.placeholder raw :: segments) :=
        mem_namesOf.2 ⟨raw, by simp, rfl⟩
      simp only [render] at failed
      cases value_eq : attributes.present? (String.ofList (Text.trim raw)) with
      | none =>
        simp only [value_eq] at failed
        exact ⟨_, isMember, .inl ⟨value_eq, (Except.error.inj failed).symm⟩⟩
      | some value =>
        simp only [value_eq] at failed
        cases text_eq : value.keyText? with
        | none =>
          simp only [text_eq] at failed
          exact ⟨_, isMember, .inr ⟨value, value_eq, text_eq, (Except.error.inj failed).symm⟩⟩
        | some text =>
          simp only [text_eq] at failed
          rcases bind_eq_error.1 failed with failed | ⟨tail, -, answer⟩
          · exact later failed
          · cases answer

/-- A template has no value because one of its names has none, or one it cannot be made of. -/
theorem error_of_interpolate {template : Template} {error : InterpolationError}
    (failed : template.interpolate mode attributes = .error error) :
    ∃ name ∈ template.names,
      (attributes.present? name = none ∧ (error = .unresolved template.display name ∨
        mode = .sparse ∧ error = .sparseSkip name)) ∨
      ∃ value, attributes.present? name = some value ∧ template.renders value = false ∧
        error = .invalidValue name := by
  cases template with
  | text source =>
    simp only [interpolate] at failed
    cases rendered_eq : render mode source attributes (segments source.toList) with
    | ok rendered =>
      rw [rendered_eq] at failed
      cases failed
    | error other =>
      rw [rendered_eq] at failed
      obtain rfl : other = error := Except.error.inj failed
      obtain ⟨name, isName, cause⟩ := error_of_render rendered_eq
      refine ⟨name, isName, ?_⟩
      rcases cause with ⟨isMissing, rfl⟩ | ⟨value, value_eq, noText, rfl⟩
      · cases mode with
        | strict => exact .inl ⟨isMissing, .inl rfl⟩
        | sparse => exact .inl ⟨isMissing, .inr ⟨rfl, rfl⟩⟩
      · exact .inr ⟨value, value_eq, by simp [renders, isAlias, noText], rfl⟩
  | copyOf attr =>
    refine ⟨attr, by simp [names], ?_⟩
    simp only [interpolate] at failed
    split at failed
    · next isMissing => exact .inl ⟨isMissing, .inl (Except.error.inj failed).symm⟩
    · next value value_eq =>
      split at failed
      · cases failed
      · next notScalar =>
        exact .inr ⟨value, value_eq, by simpa [renders, isAlias] using notScalar,
          (Except.error.inj failed).symm⟩

/-- A template asks for its index to be skipped only if one of its names has no value. -/
theorem missing_of_interpolate {template : Template} {attr : String}
    (skipped : template.interpolate mode attributes = .error (.sparseSkip attr)) :
    mode = .sparse ∧ attr ∈ template.names ∧ attributes.present? attr = none := by
  obtain ⟨name, isName, ⟨isMissing, cause⟩ | ⟨value, -, -, cause⟩⟩ := error_of_interpolate skipped
  · rcases cause with cause | ⟨isSparse, cause⟩
    · cases cause
    · obtain rfl := InterpolationError.sparseSkip.inj cause
      exact ⟨isSparse, isName, isMissing⟩
  · cases cause

end Template

namespace KeyPart

variable {mode : Completeness} {attributes : Item} {parts : List KeyPart}

theorem forall₂_of_resolveAll {values : List (String × Value)}
    (resolved : resolveAll mode attributes parts = .ok values) :
    List.Forall₂ (fun part entry => entry.1 = part.attr ∧
      part.template.interpolate mode attributes = .ok entry.2) parts values := by
  induction parts generalizing values with
  | nil =>
    obtain rfl := Except.ok.inj resolved
    exact .nil
  | cons part parts inductionHypothesis =>
    obtain ⟨value, isValue, rest⟩ := bind_eq_ok.1 resolved
    obtain ⟨others, areValues, answer⟩ := bind_eq_ok.1 rest
    obtain rfl := Except.ok.inj answer
    exact .cons ⟨rfl, isValue⟩ (inductionHypothesis areValues)

/-- Attributes that agree on the names of key parts give them the same values. -/
theorem resolveAll_eq_ok {other : Completeness} {others : Item} {values : List (String × Value)}
    (same : ∀ part ∈ parts, ∀ name ∈ part.names, attributes.present? name = others.present? name)
    (resolved : resolveAll mode attributes parts = .ok values) :
    resolveAll other others parts = .ok values := by
  induction parts generalizing values with
  | nil => exact resolved
  | cons part parts inductionHypothesis =>
    obtain ⟨value, isValue, rest⟩ := bind_eq_ok.1 resolved
    obtain ⟨rest, areValues, answer⟩ := bind_eq_ok.1 rest
    refine bind_eq_ok.2 ⟨value, Template.interpolate_eq_ok (same part (by simp)) isValue, ?_⟩
    exact bind_eq_ok.2
      ⟨rest, inductionHypothesis (fun part isPart => same part (by simp [isPart])) areValues, answer⟩

/-- Key parts have values only if all names they are derived from have scalar ones. -/
theorem present_of_resolveAll {values : List (String × Value)}
    (resolved : resolveAll mode attributes parts = .ok values) {part : KeyPart} (isPart : part ∈ parts)
    {name : String} (isName : name ∈ part.names) :
    ∃ value, attributes.present? name = some value ∧ value.isScalar = true := by
  have related := forall₂_of_resolveAll resolved
  clear resolved
  induction related with
  | nil => cases isPart
  | cons isRelated _ inductionHypothesis =>
    rcases List.mem_cons.1 isPart with rfl | isPart
    · exact Template.present_of_interpolate isRelated.2 isName
    · exact inductionHypothesis isPart

/-- Key parts have no values because one of them has none. -/
theorem error_of_resolveAll {error : InterpolationError}
    (failed : resolveAll mode attributes parts = .error error) :
    ∃ part ∈ parts, part.template.interpolate mode attributes = .error error := by
  induction parts with
  | nil => cases failed
  | cons part parts inductionHypothesis =>
    rcases bind_eq_error.1 failed with failed | ⟨value, -, rest⟩
    · exact ⟨part, by simp, failed⟩
    · rcases bind_eq_error.1 rest with failed | ⟨others, -, answer⟩
      · obtain ⟨other, isPart, failed⟩ := inductionHypothesis failed
        exact ⟨other, by simp [isPart], failed⟩
      · cases answer

theorem missing_of_resolveAll {attr : String}
    (skipped : resolveAll mode attributes parts = .error (.sparseSkip attr)) :
    mode = .sparse ∧ (∃ part ∈ parts, attr ∈ part.names) ∧ attributes.present? attr = none := by
  obtain ⟨part, isPart, skipped⟩ := error_of_resolveAll skipped
  obtain ⟨isSparse, isMember, isMissing⟩ := Template.missing_of_interpolate skipped
  exact ⟨isSparse, ⟨part, isPart, isMember⟩, isMissing⟩

end KeyPart

end SingleTable
