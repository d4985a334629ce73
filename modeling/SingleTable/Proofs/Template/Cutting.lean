import SingleTable.Proofs.Template.Separators

/-!
# How a template is cut

What `segments` returns is described without the scan that finds it: `IsCut` says how literals and
placeholders lie in a text, with every condition about what is behind a place in the list.  The scan
finds the first placeholder of any such cut and leaves a cut of the rest (`eq_segments`), so each text
has exactly one (`isCut_iff`).  What is interpolated depends on nothing but the names between the braces
(`interpolate_congr`).
-/

namespace SingleTable

/-! ## The first pair of marks -/

namespace Template

variable {cs before after : List Char} {mark : Char}

/-- Nowhere before the place between two texts do two `mark`s stand in a row. -/
def MarksFirst (mark : Char) (before after : List Char) : Prop :=
  ∀ earlier later, before ++ mark :: mark :: after = earlier ++ mark :: mark :: later →
    before.length ≤ earlier.length

theorem splitPair_ne_none (mark : Char) (earlier later : List Char) :
    splitPair mark (earlier ++ mark :: mark :: later) ≠ none := by
  induction earlier with
  | nil => simp [splitPair]
  | cons first earlier inductionHypothesis =>
    obtain ⟨second, tail, tail_eq⟩ : ∃ second tail, earlier ++ mark :: mark :: later = second :: tail :=
      List.exists_cons_of_ne_nil (by simp)
    rw [List.cons_append, tail_eq, splitPair]
    split
    · simp
    · rwa [Ne, Option.map_eq_none_iff, ← tail_eq]

theorem marksFirst_of_splitPair (found : splitPair mark cs = some (before, after)) :
    MarksFirst mark before after := by
  intro earlier later same
  rw [← splitPair_eq found] at same
  induction cs generalizing before earlier with
  | nil => cases found
  | cons first cs inductionHypothesis =>
    cases earlier with
    | nil =>
      obtain ⟨rfl, rfl⟩ := List.cons.inj same
      simp only [splitPair, and_self, if_true] at found
      obtain ⟨rfl, rfl⟩ := Prod.mk.inj (Option.some.inj found)
      exact Nat.zero_le _
    | cons other earlier =>
      cases before with
      | nil => exact Nat.zero_le _
      | cons opening before =>
        obtain ⟨second, tail, rfl⟩ : ∃ second tail, cs = second :: tail :=
          List.exists_cons_of_ne_nil (by rintro rfl; simp at same)
        rw [splitPair] at found
        split at found
        · cases found
        · obtain ⟨⟨before', after'⟩, foundLater, answer⟩ := Option.map_eq_some_iff.1 found
          obtain ⟨before_eq, rfl⟩ := Prod.mk.inj answer
          obtain ⟨rfl, rfl⟩ := List.cons.inj before_eq
          exact Nat.succ_le_succ (inductionHypothesis foundLater earlier (List.cons.inj same).2)

/-- A text is split where a pair of marks stands first. -/
theorem splitPair_of_marksFirst (isFirst : MarksFirst mark before after) :
    splitPair mark (before ++ mark :: mark :: after) = some (before, after) := by
  obtain ⟨⟨before', after'⟩, found⟩ := Option.ne_none_iff_exists'.1 (splitPair_ne_none mark before after)
  have same := splitPair_eq found
  have length_eq : before.length = before'.length :=
    le_antisymm (isFirst _ _ same) (marksFirst_of_splitPair found _ _ same.symm)
  obtain ⟨rfl, marks_eq⟩ := List.append_inj same length_eq
  rw [found, (List.cons.inj (List.cons.inj marks_eq).2).2]

end Template

/-! ## Cuts -/

namespace Segment

def written : Segment → List Char
  | literal fixed => fixed
  | placeholder raw => '\x7b' :: '\x7b' :: (raw ++ ['\x7d', '\x7d'])

end Segment

namespace Template

variable {cs before after raw : List Char} {segments gap : List Segment}

def written (segments : List Segment) : List Char := segments.flatMap (·.written)

/-- There is no placeholder among segments. -/
def AllLiteral (segments : List Segment) : Prop := ∀ segment ∈ segments, segment.name? = none

/-- A text opens a placeholder and closes it later. -/
def OpensAndCloses (cs : List Char) : Prop :=
  ∃ before raw after, cs = before ++ '\x7b' :: '\x7b' :: (raw ++ '\x7d' :: '\x7d' :: after)

/-- The segments into which a text is cut. -/
structure IsCut (segments : List Segment) (cs : List Char) : Prop where
  written_eq : written segments = cs
  nonempty : ∀ fixed, .literal fixed ∈ segments → fixed ≠ []
  /-- No two literals stand next to each other. -/
  apart : segments.IsChain fun segment next => segment.name? ≠ none ∨ next.name? ≠ none
  /-- Between a placeholder and the one before it, or the start, nothing opens another. -/
  opens : ∀ gap raw rest, AllLiteral gap → gap ++ .placeholder raw :: rest <:+ segments →
    MarksFirst '\x7b' (written gap) (raw ++ '\x7d' :: '\x7d' :: written rest)
  /-- A placeholder ends where it is first closed. -/
  closes : ∀ raw rest, .placeholder raw :: rest <:+ segments → MarksFirst '\x7d' raw (written rest)
  /-- Behind the last placeholder there is none. -/
  ends : ∀ rest, AllLiteral rest → rest <:+ segments → ¬ OpensAndCloses (written rest)

@[simp] theorem written_nil : written [] = [] := rfl

@[simp] theorem written_cons (segment : Segment) (rest : List Segment) :
    written (segment :: rest) = segment.written ++ written rest := rfl

@[simp] theorem written_append (first second : List Segment) :
    written (first ++ second) = written first ++ written second :=
  List.flatMap_append

@[simp] theorem written_literal (cs : List Char) : written (literal cs) = cs := by
  rw [literal]
  split
  · next isEmpty => exact (List.isEmpty_iff.1 isEmpty).symm
  · simp [Segment.written]

theorem written_placeholder (raw : List Char) (rest : List Segment) :
    written (.placeholder raw :: rest) =
      '\x7b' :: '\x7b' :: (raw ++ '\x7d' :: '\x7d' :: written rest) := by
  simp [Segment.written]

theorem allLiteral_literal (cs : List Char) : AllLiteral (literal cs) := by
  intro segment isMember
  rw [literal] at isMember
  split at isMember
  · cases isMember
  · rw [List.mem_singleton.1 isMember]
    rfl

theorem allLiteral_nil : AllLiteral [] := by simp [AllLiteral]

theorem not_allLiteral (raw : List Char) {segments : List Segment}
    (isMember : .placeholder raw ∈ segments) : ¬ AllLiteral segments :=
  fun all => nomatch all (.placeholder raw) isMember

/-! ## There is at most one -/

/-- Literals that are not empty and not next to each other are one at most. -/
theorem IsCut.eq_literal {rest : List Segment} (isCut : IsCut (gap ++ rest) cs) (all : AllLiteral gap) :
    gap = literal (written gap) := by
  have apart := isCut.apart.left_of_append
  match gap with
  | [] => rfl
  | [.literal fixed] =>
    have notEmpty : fixed ≠ [] := isCut.nonempty fixed (by simp)
    simp [literal, Segment.written, notEmpty]
  | [.placeholder raw] => exact absurd all (not_allLiteral raw (by simp))
  | first :: second :: rest =>
    have isApart := (List.isChain_cons_cons.1 apart).1
    simp [all first (by simp), all second (by simp)] at isApart

/-- What is behind a placeholder is a cut of the text behind it. -/
theorem IsCut.behind {rest : List Segment} (isCut : IsCut (gap ++ .placeholder raw :: rest) cs) :
    IsCut rest (written rest) := by
  have isSuffix : rest <:+ gap ++ .placeholder raw :: rest := ⟨gap ++ [.placeholder raw], by simp⟩
  exact {
    written_eq := rfl
    nonempty := fun fixed isMember => isCut.nonempty fixed (isSuffix.subset isMember)
    apart := isCut.apart.suffix isSuffix
    opens := fun gap raw tail all isTail => isCut.opens gap raw tail all (isTail.trans isSuffix)
    closes := fun raw tail isTail => isCut.closes raw tail (isTail.trans isSuffix)
    ends := fun tail all isTail => isCut.ends tail all (isTail.trans isSuffix) }

/-- What the scan does with a text that opens and closes a placeholder. -/
theorem segments_of_splitPair {inner rest : List Char}
    (opened : splitPair '\x7b' cs = some (before, inner))
    (closed : splitPair '\x7d' inner = some (raw, rest)) :
    Template.segments cs = literal before ++ .placeholder raw :: Template.segments rest := by
  rw [Template.segments]
  split
  · next none_eq => rw [opened] at none_eq; cases none_eq
  · next cut_eq =>
    rw [opened] at cut_eq
    obtain ⟨rfl, rfl⟩ := Prod.mk.inj (Option.some.inj cut_eq)
    split
    · next none_eq => rw [closed] at none_eq; cases none_eq
    · next cut_eq =>
      rw [closed] at cut_eq
      obtain ⟨rfl, rfl⟩ := Prod.mk.inj (Option.some.inj cut_eq)
      rfl

theorem segments_eq_literal (none : ¬ OpensAndCloses cs) : Template.segments cs = literal cs := by
  rw [Template.segments]
  split
  · rfl
  · next before inner opened =>
    split
    · rfl
    · next raw rest closed =>
      exact absurd ⟨before, raw, rest, by rw [splitPair_eq opened, splitPair_eq closed]⟩ none

/-- Segments are literals up to their end, or up to a placeholder. -/
theorem exists_gap (segments : List Segment) :
    ∃ gap rest, segments = gap ++ rest ∧ AllLiteral gap ∧
      (rest = [] ∨ ∃ raw behind, rest = .placeholder raw :: behind) := by
  induction segments with
  | nil => exact ⟨[], [], rfl, by simp [AllLiteral], .inl rfl⟩
  | cons segment segments inductionHypothesis =>
    cases segment with
    | placeholder raw => exact ⟨[], _, rfl, by simp [AllLiteral], .inr ⟨raw, segments, rfl⟩⟩
    | literal fixed =>
      obtain ⟨gap, rest, rfl, all, cases⟩ := inductionHypothesis
      exact ⟨.literal fixed :: gap, rest, rfl, List.forall_mem_cons.2 ⟨rfl, all⟩, cases⟩

/-- The scan finds the segments of every cut. -/
theorem eq_segments {cs : List Char} {segments : List Segment} (isCut : IsCut segments cs) :
    segments = Template.segments cs := by
  -- behind the first placeholder there is a cut again, with fewer segments
  induction count_eq : segments.length using Nat.strong_induction_on generalizing cs segments with
  | h count inductionHypothesis =>
    obtain ⟨gap, rest, rfl, all, rfl | ⟨raw, behind, rfl⟩⟩ := exists_gap segments
    · have none : ¬ OpensAndCloses cs := by
        rw [← isCut.written_eq, List.append_nil]
        exact isCut.ends gap all (by simp)
      rw [segments_eq_literal none, ← isCut.written_eq, List.append_nil]
      exact isCut.eq_literal all
    · have opened := splitPair_of_marksFirst (isCut.opens gap raw behind all (List.suffix_refl _))
      have closed := splitPair_of_marksFirst (isCut.closes raw behind (List.suffix_append _ _))
      have text_eq := isCut.written_eq
      rw [written_append, written_placeholder] at text_eq
      rw [text_eq] at opened
      have behind_eq : behind = Template.segments (written behind) :=
        inductionHypothesis behind.length (by simp [← count_eq]; omega) isCut.behind rfl
      rw [segments_of_splitPair opened closed, ← behind_eq, ← isCut.eq_literal all]

/-! ## There is one -/

/-- A suffix of a literal and the segments behind it is all of them, or a suffix of those behind. -/
theorem suffix_literal_append {rest : List Segment} (isSuffix : rest <:+ literal cs ++ segments) :
    rest = literal cs ++ segments ∨ rest <:+ segments := by
  rw [literal] at isSuffix ⊢
  split at isSuffix
  · exact .inr isSuffix
  · next notEmpty =>
    rw [if_neg notEmpty]
    exact List.suffix_cons_iff.1 isSuffix

theorem isCut_literal (none : ¬ OpensAndCloses cs) : IsCut (literal cs) cs where
  written_eq := written_literal cs
  nonempty _ isMember := ne_nil_of_mem_literal isMember
  apart := by
    rw [literal]
    split <;> simp
  opens _ raw _ _ isSuffix :=
    absurd (allLiteral_literal cs) (not_allLiteral raw (isSuffix.subset (by simp)))
  closes raw _ isSuffix :=
    absurd (allLiteral_literal cs) (not_allLiteral raw (isSuffix.subset (by simp)))
  ends rest _ isSuffix := by
    rw [← List.append_nil (literal cs)] at isSuffix
    rcases suffix_literal_append isSuffix with rfl | isSuffix
    · simpa using none
    · obtain rfl := List.suffix_nil.1 isSuffix
      rintro ⟨before, raw, after, same⟩
      simp at same

/-- Literals up to a placeholder end at the first one. -/
theorem gap_inj {gap' rest rest' : List Segment} {raw' : List Char} (all : AllLiteral gap)
    (all' : AllLiteral gap') (same : gap ++ .placeholder raw :: rest = gap' ++ .placeholder raw' :: rest') :
    gap = gap' ∧ raw = raw' ∧ rest = rest' := by
  induction gap generalizing gap' with
  | nil =>
    cases gap' with
    | nil => simpa using same
    | cons segment gap' =>
      obtain ⟨rfl, -⟩ := List.cons.inj same
      exact absurd (all' _ List.mem_cons_self) (by simp [Segment.name?])
  | cons segment gap inductionHypothesis =>
    cases gap' with
    | nil =>
      obtain ⟨rfl, -⟩ := List.cons.inj same
      exact absurd (all _ List.mem_cons_self) (by simp [Segment.name?])
    | cons segment' gap' =>
      obtain ⟨rfl, sameLater⟩ := List.cons.inj same
      obtain ⟨rfl, others⟩ := inductionHypothesis (List.forall_mem_cons.1 all).2
        (List.forall_mem_cons.1 all').2 sameLater
      exact ⟨rfl, others⟩

/-- Where a placeholder stands behind literals: it is the first, with or without the literal before it,
or it stands among the segments behind the first. -/
theorem placeholder_suffix {rest rest' : List Segment} {raw' : List Char} (all : AllLiteral gap)
    (isSuffix : gap ++ .placeholder raw' :: rest' <:+ literal before ++ .placeholder raw :: rest) :
    ((gap = literal before ∨ gap = []) ∧ raw' = raw ∧ rest' = rest) ∨
      gap ++ .placeholder raw' :: rest' <:+ rest := by
  rcases suffix_literal_append isSuffix with same | isSuffix
  · obtain ⟨rfl, isFirst⟩ := gap_inj all (allLiteral_literal before) same
    exact .inl ⟨.inl rfl, isFirst⟩
  · rcases List.suffix_cons_iff.1 isSuffix with same | isSuffix
    · obtain ⟨rfl, isFirst⟩ := gap_inj all allLiteral_nil same
      exact .inl ⟨.inr rfl, isFirst⟩
    · exact .inr isSuffix

/-- A cut behind a placeholder is continued to the front by the placeholder and what is before it. -/
theorem IsCut.cons {rest : List Segment} (isCut : IsCut rest after)
    (opens : MarksFirst '\x7b' before (raw ++ '\x7d' :: '\x7d' :: after))
    (closes : MarksFirst '\x7d' raw after) :
    IsCut (literal before ++ .placeholder raw :: rest)
      (before ++ '\x7b' :: '\x7b' :: (raw ++ '\x7d' :: '\x7d' :: after)) := by
  obtain rfl := isCut.written_eq
  exact {
    written_eq := by rw [written_append, written_literal, written_placeholder]
    nonempty := fun fixed isMember => by
      rw [List.mem_append, List.mem_cons] at isMember
      rcases isMember with isMember | isMember | isMember
      · exact ne_nil_of_mem_literal isMember
      · cases isMember
      · exact isCut.nonempty fixed isMember
    apart := by
      have behind : (.placeholder raw :: rest).IsChain fun segment next : Segment =>
          segment.name? ≠ none ∨ next.name? ≠ none :=
        isCut.apart.cons fun _ _ => .inl (by simp [Segment.name?])
      rw [literal]
      split
      · exact behind
      · exact behind.cons fun _ isNext => .inr (by simp at isNext; simp [← isNext, Segment.name?])
    opens := fun gap raw' rest' all isSuffix => by
      rcases placeholder_suffix all isSuffix with ⟨rfl | rfl, rfl, rfl⟩ | isSuffix
      · rwa [written_literal]
      · exact fun _ _ _ => Nat.zero_le _
      · exact isCut.opens gap raw' rest' all isSuffix
    closes := fun raw' rest' isSuffix => by
      rcases placeholder_suffix allLiteral_nil isSuffix with ⟨-, rfl, rfl⟩ | isSuffix
      · exact closes
      · exact isCut.closes raw' rest' isSuffix
    ends := fun tail all isSuffix => by
      rcases suffix_literal_append isSuffix with rfl | isSuffix
      · exact absurd all (not_allLiteral raw (by simp))
      · rcases List.suffix_cons_iff.1 isSuffix with rfl | isSuffix
        · exact absurd all (not_allLiteral raw (by simp))
        · exact isCut.ends tail all isSuffix }

/-- A text opens and closes no placeholder if nothing is closed behind the first opening. -/
theorem not_opensAndCloses (notClosed : ∀ before inner, splitPair '\x7b' cs = some (before, inner) →
    splitPair '\x7d' inner = none) : ¬ OpensAndCloses cs := by
  rintro ⟨earlier, raw, after, rfl⟩
  obtain ⟨⟨before, inner⟩, opened⟩ := Option.ne_none_iff_exists'.1
    (splitPair_ne_none '\x7b' earlier (raw ++ '\x7d' :: '\x7d' :: after))
  have same := splitPair_eq opened
  have isFirst : before.length ≤ earlier.length :=
    marksFirst_of_splitPair opened _ _ same.symm
  have inner_eq : inner = (earlier ++ '\x7b' :: '\x7b' :: raw).drop (before.length + 2) ++
      '\x7d' :: '\x7d' :: after := by
    rw [← List.drop_append_of_le_length (by simp; omega)]
    have dropped := congrArg (List.drop (before.length + 2)) same
    rw [List.drop_length_add_append] at dropped
    simpa using dropped.symm
  exact splitPair_ne_none '\x7d' _ _ (inner_eq ▸ notClosed before inner opened)

theorem isCut_segments (cs : List Char) : IsCut (Template.segments cs) cs := by
  fun_induction Template.segments cs with
  | case1 cs notOpened =>
    exact isCut_literal (not_opensAndCloses fun _ _ opened => by simp [notOpened] at opened)
  | case2 cs before inner opened notClosed =>
    refine isCut_literal (not_opensAndCloses fun before' inner' opened' => ?_)
    obtain ⟨-, rfl⟩ := Prod.mk.inj (Option.some.inj (opened.symm.trans opened'))
    exact notClosed
  | case3 cs before inner opened raw rest closed inductionHypothesis =>
    have whole := inductionHypothesis.cons (splitPair_eq closed ▸ marksFirst_of_splitPair opened)
      (marksFirst_of_splitPair closed)
    rwa [← splitPair_eq closed, ← splitPair_eq opened] at whole

/-- A text has one cut, which is the one that the scan finds. -/
theorem isCut_iff {cs : List Char} {segments : List Segment} :
    IsCut segments cs ↔ segments = Template.segments cs :=
  ⟨eq_segments, fun same => same ▸ isCut_segments cs⟩

/-! ## What interpolation reads -/

section Locality

variable {mode : Completeness} {attributes others : Item}

theorem render_congr {source : String}
    (same : ∀ name ∈ namesOf segments, attributes.present? name = others.present? name) :
    render mode source attributes segments = render mode source others segments := by
  induction segments with
  | nil => rfl
  | cons segment segments inductionHypothesis =>
    have sameLater : render mode source attributes segments = render mode source others segments := by
      refine inductionHypothesis fun name isMember => ?_
      obtain ⟨raw, inSegments, name_eq⟩ := mem_namesOf.1 isMember
      exact same name (mem_namesOf.2 ⟨raw, by simp [inSegments], name_eq⟩)
    cases segment with
    | literal fixed => rw [render, render, sameLater]
    | placeholder raw =>
      have sameHere := same (String.ofList (Text.trim raw)) (mem_namesOf.2 ⟨raw, by simp, rfl⟩)
      rw [render, render, sameHere, sameLater]

theorem interpolate_congr {template : Template}
    (same : ∀ name ∈ template.names, attributes.present? name = others.present? name) :
    template.interpolate mode attributes = template.interpolate mode others := by
  cases template with
  | text source => rw [interpolate, interpolate, render_congr same]
  | copyOf attr => rw [interpolate, interpolate, same attr (by simp [names])]

theorem exists_error_of_missing {template : Template} {name : String} (isName : name ∈ template.names)
    (isMissing : attributes.present? name = none) :
    ∃ error, template.interpolate mode attributes = .error error := by
  cases outcome : template.interpolate mode attributes with
  | error error => exact ⟨error, rfl⟩
  | ok value =>
    obtain ⟨found, found_eq, -⟩ := present_of_interpolate outcome isName
    cases isMissing.symm.trans found_eq

end Locality

/-- A text is cut in one way only, and this is what `segments` returns.  A template, text or alias, has
the same outcome over any two items that agree on its names, and none over an item that has no value, or
a null, for one of them. -/
theorem segments_exact_interpolate_local :
    (∀ (cs : List Char) (segments : List Segment),
      IsCut segments cs ↔ segments = Template.segments cs) ∧
    ∀ (template : Template) (mode : Completeness) (attributes : Item),
      (∀ others : Item, (∀ name ∈ template.names, attributes.get? name = others.get? name) →
        template.interpolate mode attributes = template.interpolate mode others) ∧
      ∀ name ∈ template.names,
        (attributes.get? name = none ∨ ∃ flag, attributes.get? name = some (.null flag)) →
          ∃ error, template.interpolate mode attributes = .error error := by
  refine ⟨fun cs segments => isCut_iff, fun template mode attributes => ⟨fun others same => ?_, ?_⟩⟩
  · exact interpolate_congr fun name isName => by rw [Item.present?, Item.present?, same name isName]
  · intro name isName isMissing
    refine exists_error_of_missing isName ?_
    rcases isMissing with absent | ⟨flag, isNull⟩
    · rw [Item.present?, absent, Option.filter_none]
    · simp [Item.present?, isNull, Value.isNull]

/-- Attributes that the template does not name, and a null for one that it does. -/
theorem segments_exact_interpolate_local_twiceOwned :
    (text twiceOwned).interpolate .sparse ownedSeven =
        (text twiceOwned).interpolate .sparse (ownedSeven.insert "note" (.null true)) ∧
      ∃ error, (text twiceOwned).interpolate .strict (ownedSeven.insert "org" (.null true)) =
        .error error :=
  ⟨(segments_exact_interpolate_local.2 _ _ _).1 _ (by decide +kernel),
    (segments_exact_interpolate_local.2 _ _ _).2 "org" (by decide +kernel)
      (.inr ⟨true, by decide +kernel⟩)⟩

end Template

end SingleTable
