import Mathlib.Data.List.TakeWhile
import SingleTable.Proofs.Template.Interpolation
import SingleTable.Template.Recovery

/-!
# Reading a key text back

A reading lays a template along a text (`Lays`).  There is one as soon as any way of laying the
template fits (`isSome_reading?_iff`), but it need not be the way in which the text was written: each
placeholder before the last takes as little as it can (`reading?_gap_iff`), and the last one stops at a
line feed.  `Unmistakable` says of what was written that no placeholder can take less, and this is all
that stands between what is read and what was written (`reading?_lay_iff`).
-/

namespace SingleTable.Template

variable {segments rest : List Segment} {reading : Reading} {cs : List Char}

/-! ## One suffix at a time -/

/-- The table of a text goes on as that of the text without its first character. -/
theorem tail_matchSuffixes (segments : List Segment) (c : Char) (cs : List Char) :
    (matchSuffixes segments (c :: cs)).tail = matchSuffixes segments cs := by
  induction segments with
  | nil => simp [matchSuffixes]
  | cons segment rest inductionHypothesis =>
    rcases segment with fixed | raw
    · simp [matchSuffixes, literalSuffixes, inductionHypothesis]
    · cases rest with
      | nil => rfl
      | cons next rest => simp [matchSuffixes, gapSuffixes, inductionHypothesis]

theorem front_drop_matchSuffixes (segments : List Segment) {count : Nat} (inside : count ≤ cs.length) :
    front ((matchSuffixes segments cs).drop count) = reading? segments (cs.drop count) := by
  induction count generalizing cs with
  | zero => rfl
  | succ count inductionHypothesis =>
    cases cs with
    | nil => simp at inside
    | cons c cs =>
      rw [List.drop_succ_cons, ← inductionHypothesis (by simpa using inside), ← List.drop_tail,
        tail_matchSuffixes]

theorem reading?_nil (cs : List Char) : reading? [] cs = some [] := by
  simp [reading?, matchSuffixes, front, List.replicate_succ]

theorem reading?_literal (fixed : List Char) (rest : List Segment) (cs : List Char) :
    reading? (.literal fixed :: rest) cs =
      if fixed.isPrefixOf cs then reading? rest (cs.drop fixed.length) else none := by
  have here : reading? (.literal fixed :: rest) cs =
      if fixed.isPrefixOf cs then front ((matchSuffixes rest cs).drop fixed.length) else none := by
    cases cs <;> simp [reading?, matchSuffixes, literalSuffixes, front]
  rw [here]
  split
  · next isPrefix =>
    rw [front_drop_matchSuffixes rest (List.isPrefixOf_iff_prefix.1 isPrefix).length_le]
  · rfl

theorem reading?_last (raw cs : List Char) :
    reading? [.placeholder raw] cs = some [cs.takeWhile (· ≠ '\n')] := by
  cases cs <;> rfl

section Gap

variable {raw : List Char} {next : Segment}

theorem reading?_gap_nil :
    reading? (.placeholder raw :: next :: rest) [] = (reading? (next :: rest) []).map ([] :: ·) := by
  simp [reading?, matchSuffixes, gapSuffixes, front]

theorem reading?_gap_cons {c : Char} :
    reading? (.placeholder raw :: next :: rest) (c :: cs) =
      match reading? (next :: rest) (c :: cs) with
      | some reading => some ([] :: reading)
      | none =>
        match reading? (.placeholder raw :: next :: rest) cs with
        | some (taken :: reading) => if c = '\n' then none else some ((c :: taken) :: reading)
        | _ => none := by
  have tail_eq := tail_matchSuffixes (next :: rest) c cs
  simp only [reading?, matchSuffixes, gapSuffixes, tail_eq]
  rfl

theorem reading?_gap_of_some {c : Char} {others : Reading}
    (here : reading? (next :: rest) (c :: cs) = some others) :
    reading? (.placeholder raw :: next :: rest) (c :: cs) = some ([] :: others) := by
  rw [reading?_gap_cons, here]

/-- Where the others do not fit, the placeholder takes a character, which is no line feed. -/
theorem reading?_gap_of_none {c : Char} (here : reading? (next :: rest) (c :: cs) = none) :
    reading? (.placeholder raw :: next :: rest) (c :: cs) = some reading ↔
      c ≠ '\n' ∧ ∃ taken others, reading = (c :: taken) :: others ∧
        reading? (.placeholder raw :: next :: rest) cs = some (taken :: others) := by
  rw [reading?_gap_cons, here]
  constructor
  · intro found
    dsimp only at found
    split at found
    · next taken others found_eq =>
      split at found
      · cases found
      · next notBreak => exact ⟨notBreak, taken, others, (Option.some.inj found).symm, found_eq⟩
    · cases found
  · rintro ⟨notBreak, taken, others, rfl, found_eq⟩
    rw [found_eq]
    exact if_neg notBreak

/-- A placeholder before others takes as little as lets the others fit. -/
theorem reading?_gap_iff :
    reading? (.placeholder raw :: next :: rest) cs = some reading ↔
      ∃ taken others beyond, reading = taken :: others ∧ cs = taken ++ beyond ∧ '\n' ∉ taken ∧
        reading? (next :: rest) beyond = some others ∧
        ∀ cut < taken.length, reading? (next :: rest) (cs.drop cut) = none := by
  induction cs generalizing reading with
  | nil =>
    rw [reading?_gap_nil, Option.map_eq_some_iff]
    constructor
    · rintro ⟨others, found, rfl⟩
      exact ⟨[], others, [], rfl, rfl, by simp, found, by simp⟩
    · rintro ⟨taken, others, beyond, rfl, split_eq, -, found, -⟩
      obtain ⟨rfl, rfl⟩ := List.append_eq_nil_iff.1 split_eq.symm
      exact ⟨others, found, rfl⟩
  | cons c cs inductionHypothesis =>
    cases here : reading? (next :: rest) (c :: cs) with
    | some others =>
      rw [reading?_gap_of_some here]
      constructor
      · rintro ⟨⟩
        exact ⟨[], others, c :: cs, rfl, rfl, by simp, here, by simp⟩
      · rintro ⟨taken, others', beyond, rfl, split_eq, -, found, shortest⟩
        cases taken with
        | nil =>
          obtain rfl : c :: cs = beyond := split_eq
          rw [here] at found
          rw [Option.some.inj found]
        | cons first taken =>
          have notHere := shortest 0 (by simp)
          rw [List.drop_zero, here] at notHere
          cases notHere
    | none =>
      rw [reading?_gap_of_none here]
      constructor
      · rintro ⟨notBreak, taken, others, rfl, found⟩
        obtain ⟨_, _, beyond, reading_eq, rfl, noBreak, isRest, shortest⟩ := inductionHypothesis.1 found
        obtain ⟨rfl, rfl⟩ := List.cons.inj reading_eq
        refine ⟨c :: taken, others, beyond, rfl, rfl, by simp [noBreak, Ne.symm notBreak], isRest, ?_⟩
        rintro (_ | cut) isShort
        · exact here
        · exact shortest cut (by simpa using isShort)
      · rintro ⟨taken, others, beyond, rfl, split_eq, noBreak, isRest, shortest⟩
        cases taken with
        | nil =>
          obtain rfl : c :: cs = beyond := split_eq
          rw [here] at isRest
          cases isRest
        | cons first taken =>
          obtain ⟨rfl, rfl⟩ := List.cons.inj split_eq
          rw [List.mem_cons, not_or] at noBreak
          exact ⟨Ne.symm noBreak.1, taken, others, rfl, inductionHypothesis.2 ⟨taken, others, beyond,
            rfl, rfl, noBreak.2, isRest, fun cut isShort => by
              simpa using shortest (cut + 1) (by simpa using isShort)⟩⟩

end Gap

/-! ## Laying a template along a text -/

/-- A template lies along the start of a text, with what its placeholders take. -/
inductive Lays : List Segment → Reading → List Char → Prop where
  | done (beyond : List Char) : Lays [] [] beyond
  | literal (fixed : List Char) {rest : List Segment} {reading : Reading} {beyond : List Char}
      (others : Lays rest reading beyond) : Lays (.literal fixed :: rest) reading (fixed ++ beyond)
  | placeholder {raw taken : List Char} {rest : List Segment} {reading : Reading} {beyond : List Char}
      (noBreak : '\n' ∉ taken) (others : Lays rest reading beyond) :
      Lays (.placeholder raw :: rest) (taken :: reading) (taken ++ beyond)

/-- A template lies along the start of a text in some way. -/
def Fits (segments : List Segment) (cs : List Char) : Prop := ∃ reading, Lays segments reading cs

theorem lays_of_reading? (found : reading? segments cs = some reading) : Lays segments reading cs := by
  induction segments generalizing reading cs with
  | nil =>
    rw [reading?_nil] at found
    obtain rfl := Option.some.inj found
    exact .done cs
  | cons segment rest inductionHypothesis =>
    rcases segment with fixed | raw
    · rw [reading?_literal] at found
      split at found
      · next isPrefix =>
        obtain ⟨beyond, rfl⟩ := List.isPrefixOf_iff_prefix.1 isPrefix
        rw [List.drop_left] at found
        exact .literal fixed (inductionHypothesis found)
      · cases found
    · cases rest with
      | nil =>
        rw [reading?_last] at found
        obtain rfl := Option.some.inj found
        have lays : Lays [.placeholder raw] [cs.takeWhile (· ≠ '\n')]
            (cs.takeWhile (· ≠ '\n') ++ cs.dropWhile (· ≠ '\n')) :=
          .placeholder (fun isBreak => by simpa using List.mem_takeWhile_imp isBreak) (.done _)
        rwa [List.takeWhile_append_dropWhile] at lays
      | cons next rest =>
        obtain ⟨taken, others, beyond, rfl, rfl, noBreak, isRest, -⟩ := reading?_gap_iff.1 found
        exact .placeholder noBreak (inductionHypothesis isRest)

theorem isSome_reading?_of_lays (lays : Lays segments reading cs) :
    (reading? segments cs).isSome = true := by
  induction lays with
  | done beyond => rw [reading?_nil, Option.isSome_some]
  | literal fixed _ inductionHypothesis =>
    rw [reading?_literal, if_pos (List.isPrefixOf_iff_prefix.2 (List.prefix_append _ _)), List.drop_left]
    exact inductionHypothesis
  | @placeholder raw taken rest reading beyond noBreak _ inductionHypothesis =>
    cases rest with
    | nil => simp [reading?_last]
    | cons next rest =>
      -- what the placeholder takes of a text at most, it can take of the text behind its first character
      induction taken with
      | nil =>
        rw [List.nil_append]
        cases beyond with
        | nil => simpa [reading?_gap_nil] using inductionHypothesis
        | cons c beyond =>
          obtain ⟨others, found⟩ := Option.isSome_iff_exists.1 inductionHypothesis
          rw [reading?_gap_of_some found, Option.isSome_some]
      | cons c taken takenHypothesis =>
        rw [List.mem_cons, not_or] at noBreak
        rw [List.cons_append, reading?_gap_cons]
        obtain ⟨longer, found⟩ := Option.isSome_iff_exists.1 (takenHypothesis noBreak.2)
        obtain ⟨_, _, _, rfl, -⟩ := reading?_gap_iff.1 found
        rw [found]
        cases reading? (next :: rest) (c :: (taken ++ beyond)) with
        | some others => rfl
        | none => simp [Ne.symm noBreak.1]

/-- A text has a reading if and only if the template fits it. -/
theorem isSome_reading?_iff : (reading? segments cs).isSome = true ↔ Fits segments cs := by
  constructor
  · intro isSome
    obtain ⟨reading, found⟩ := Option.isSome_iff_exists.1 isSome
    exact ⟨reading, lays_of_reading? found⟩
  · rintro ⟨reading, lays⟩
    exact isSome_reading?_of_lays lays

theorem reading?_eq_none_iff : reading? segments cs = none ↔ ¬ Fits segments cs := by
  rw [← isSome_reading?_iff, Bool.not_eq_true, Option.isSome_eq_false_iff, Option.isNone_iff_eq_none]

instance (segments : List Segment) (cs : List Char) : Decidable (Fits segments cs) :=
  decidable_of_iff _ isSome_reading?_iff

/-! ## What was written -/

/-- The text of a template with given texts for its placeholders. -/
def lay : List Segment → Reading → List Char
  | .literal fixed :: rest, reading => fixed ++ lay rest reading
  | .placeholder _ :: rest, taken :: reading => taken ++ lay rest reading
  | _, _ => []

@[simp] theorem lay_nil (reading : Reading) : lay [] reading = [] := by cases reading <;> rfl

/-- No placeholder of a written text can be read as taking less: the last holds no line feed, and of the
others none can be cut short so that what follows fits.  Behind a line feed nothing is read at all. -/
def Unmistakable : List Segment → Reading → Prop
  | .literal _ :: rest, reading => Unmistakable rest reading
  | [.placeholder _], taken :: _ => '\n' ∉ taken
  | .placeholder _ :: next :: rest, taken :: reading =>
    (∀ cut < taken.length, '\n' ∉ taken.take cut →
      ¬ Fits (next :: rest) (taken.drop cut ++ lay (next :: rest) reading)) ∧
    ('\n' ∉ taken → Unmistakable (next :: rest) reading)
  | _, _ => True

def decideUnmistakable : ∀ segments reading, Decidable (Unmistakable segments reading)
  | [], _ => isTrue trivial
  | .literal _ :: rest, reading => decideUnmistakable rest reading
  | [.placeholder _], [] => isTrue trivial
  | .placeholder _ :: _ :: _, [] => isTrue trivial
  | [.placeholder _], taken :: _ => inferInstanceAs (Decidable ('\n' ∉ taken))
  | .placeholder _ :: next :: rest, taken :: reading =>
    have := decideUnmistakable (next :: rest) reading
    inferInstanceAs (Decidable ((∀ cut < taken.length, '\n' ∉ taken.take cut →
      ¬ Fits (next :: rest) (taken.drop cut ++ lay (next :: rest) reading)) ∧
      ('\n' ∉ taken → Unmistakable (next :: rest) reading)))

instance (segments : List Segment) (reading : Reading) : Decidable (Unmistakable segments reading) :=
  decideUnmistakable segments reading

/-- If a template fits behind the start of its own text, it fits at the start too. -/
theorem fits_lay {count : Nat} (noBreak : '\n' ∉ (lay segments reading).take count)
    (fits : Fits segments ((lay segments reading).drop count)) : Fits segments (lay segments reading) := by
  obtain ⟨found, lays⟩ := fits
  generalize text_eq : (lay segments reading).drop count = text at lays
  induction lays generalizing reading with
  | done beyond => exact ⟨[], .done _⟩
  | @literal fixed rest taken beyond _ inductionHypothesis =>
    simp only [lay] at noBreak text_eq ⊢
    have behind : (lay rest reading).drop count = beyond := by
      calc (lay rest reading).drop count
          = ((fixed ++ lay rest reading).drop count).drop fixed.length := by
            rw [List.drop_drop, Nat.add_comm, List.drop_length_add_append]
        _ = beyond := by rw [text_eq, List.drop_left]
    have shifted : (fixed ++ lay rest reading).take count ++ fixed =
        fixed ++ (lay rest reading).take count := by
      have longer : (fixed ++ lay rest reading).take count ++ fixed ++ beyond =
          fixed ++ (lay rest reading).take count ++ beyond := by
        rw [List.append_assoc, ← text_eq, List.take_append_drop, List.append_assoc, ← behind,
          List.take_append_drop]
      exact List.append_cancel_right longer
    have noBreakRest : '\n' ∉ (lay rest reading).take count := by
      have count_eq := congrArg (List.count '\n') shifted
      rw [List.count_append, List.count_append, List.count_eq_zero.2 noBreak] at count_eq
      exact List.count_eq_zero.1 (by omega)
    obtain ⟨others, lays⟩ := inductionHypothesis noBreakRest behind
    exact ⟨others, .literal fixed lays⟩
  | @placeholder raw taken rest others beyond noBreakTaken lays inductionHypothesis =>
    generalize lay _ reading = written at *
    have split_eq : written = (written.take count ++ taken) ++ beyond := by
      rw [List.append_assoc, ← text_eq, List.take_append_drop]
    rw [split_eq]
    exact ⟨_, .placeholder (by simp [noBreak, noBreakTaken]) lays⟩

theorem reading?_gap_eq_some (raw : List Char) {taken beyond : List Char} {next : Segment} {others : Reading}
    (noBreak : '\n' ∉ taken) (isRest : reading? (next :: rest) beyond = some others)
    (noCut : ∀ cut < taken.length, ¬ Fits (next :: rest) (taken.drop cut ++ beyond)) :
    reading? (.placeholder raw :: next :: rest) (taken ++ beyond) = some (taken :: others) := by
  refine reading?_gap_iff.2 ⟨taken, others, beyond, rfl, rfl, noBreak, isRest, fun cut isShort => ?_⟩
  rw [reading?_eq_none_iff, List.drop_append_of_le_length isShort.le]
  exact noCut cut isShort

/-- If only what was written is read, no cut lets the others fit: the first that did would be read. -/
theorem not_fits_of_sound {raw taken text : List Char} {next : Segment} {others : Reading}
    (sound : ∀ found, reading? (.placeholder raw :: next :: rest) (taken ++ text) = some found →
      found = taken :: others) {cut : Nat} (isShort : cut < taken.length)
    (noBreak : '\n' ∉ taken.take cut) : ¬ Fits (next :: rest) (taken.drop cut ++ text) := by
  induction cut using Nat.strong_induction_on with
  | _ cut shorter =>
    intro fits
    obtain ⟨early, isRest⟩ := Option.isSome_iff_exists.1 (isSome_reading?_iff.2 fits)
    have isFound := reading?_gap_eq_some raw noBreak isRest (by
      intro cut' isShorter
      rw [List.length_take_of_le isShort.le] at isShorter
      rw [← List.append_assoc, ← List.drop_append_of_le_length (by
        rw [List.length_take_of_le isShort.le]; exact isShorter.le), List.take_append_drop]
      refine shorter cut' isShorter (isShorter.trans isShort) fun isBreak => noBreak ?_
      exact (List.take_subset_take_left _ isShorter.le) isBreak)
    rw [← List.append_assoc, List.take_append_drop] at isFound
    have same := congrArg List.length (List.cons.inj (sound _ isFound)).1
    rw [List.length_take_of_le isShort.le] at same
    omega

/-- If no cut lets the others fit, what a placeholder takes of a written text is what was written. -/
theorem taken_eq_of_shortest {taken taken' beyond : List Char} {next : Segment} {others : Reading}
    (noCut : ∀ cut < taken.length, '\n' ∉ taken.take cut →
      ¬ Fits (next :: rest) (taken.drop cut ++ lay (next :: rest) others))
    (split_eq : taken ++ lay (next :: rest) others = taken' ++ beyond) (noBreak : '\n' ∉ taken')
    (fitsBeyond : Fits (next :: rest) beyond)
    (shortest : ∀ cut < taken'.length,
      reading? (next :: rest) ((taken ++ lay (next :: rest) others).drop cut) = none) :
    taken' = taken ∧ beyond = lay (next :: rest) others := by
  rcases List.append_eq_append_iff.1 split_eq with ⟨more, rfl, lay_eq⟩ | ⟨more, rfl, rfl⟩
  · -- taking more than was written would mean that the rest does not fit its own text
    rcases more with _ | ⟨c, more⟩
    · exact ⟨List.append_nil taken, lay_eq.symm⟩
    · have notHere := shortest taken.length (by simp)
      rw [List.drop_left, reading?_eq_none_iff] at notHere
      have noBreakMore : '\n' ∉ (lay (next :: rest) others).take (c :: more).length := by
        rw [lay_eq, List.take_left]
        exact fun isBreak => noBreak (List.mem_append_right _ isBreak)
      have fitsLater : Fits (next :: rest) ((lay (next :: rest) others).drop (c :: more).length) := by
        rwa [lay_eq, List.drop_left]
      exact absurd (fits_lay noBreakMore fitsLater) notHere
  · rcases more with _ | ⟨c, more⟩
    · exact ⟨(List.append_nil taken').symm, rfl⟩
    · refine absurd ?_ (noCut taken'.length (by simp) (by rwa [List.take_left]))
      rwa [List.drop_left]

theorem reading?_lay_gap_iff {raw taken : List Char} {next : Segment} {others : Reading}
    (ofRest : (∀ found, reading? (next :: rest) (lay (next :: rest) others) = some found →
      found = others) ↔ Unmistakable (next :: rest) others) :
    (∀ found, reading? (.placeholder raw :: next :: rest)
        (taken ++ lay (next :: rest) others) = some found → found = taken :: others) ↔
      Unmistakable (.placeholder raw :: next :: rest) (taken :: others) := by
  rw [Unmistakable]
  constructor
  · intro sound
    have noCut : ∀ cut < taken.length, '\n' ∉ taken.take cut →
        ¬ Fits (next :: rest) (taken.drop cut ++ lay (next :: rest) others) :=
      fun _ isShort noBreak => not_fits_of_sound sound isShort noBreak
    refine ⟨noCut, fun noBreak => ofRest.1 fun found isFound => ?_⟩
    have isFound := reading?_gap_eq_some raw noBreak isFound fun cut isShort =>
      noCut cut isShort fun isBreak => noBreak (List.take_subset _ _ isBreak)
    exact (List.cons.inj (sound _ isFound)).2
  · rintro ⟨noCut, unmistakable⟩ found isFound
    obtain ⟨taken', others', beyond, rfl, split_eq, noBreak, isRest, shortest⟩ :=
      reading?_gap_iff.1 isFound
    have fitsBeyond := isSome_reading?_iff.1 (Option.isSome_iff_exists.2 ⟨_, isRest⟩)
    obtain ⟨rfl, rfl⟩ := taken_eq_of_shortest noCut split_eq noBreak fitsBeyond shortest
    rw [ofRest.2 (unmistakable noBreak) _ isRest]

/-- What is read of a written text is what was written if and only if that is unmistakable; there may
be nothing to read. -/
theorem reading?_lay_iff (length_eq : reading.length = (segments.filterMap (·.name?)).length) :
    (∀ found, reading? segments (lay segments reading) = some found → found = reading) ↔
      Unmistakable segments reading := by
  induction segments generalizing reading with
  | nil =>
    obtain rfl : reading = [] := List.eq_nil_of_length_eq_zero length_eq
    simp [reading?_nil, Unmistakable]
  | cons segment rest inductionHypothesis =>
    rcases segment with fixed | raw
    · simp only [lay, Unmistakable]
      rw [← inductionHypothesis (by simpa [Segment.name?] using length_eq), reading?_literal,
        if_pos (List.isPrefixOf_iff_prefix.2 (List.prefix_append _ _)), List.drop_left]
    · obtain ⟨taken, others, rfl⟩ := List.exists_cons_of_length_pos (l := reading) (by
        rw [length_eq]
        simp [Segment.name?])
      have length_eq : others.length = (rest.filterMap (·.name?)).length := by
        simpa [Segment.name?] using length_eq
      cases rest with
      | nil =>
        obtain rfl : others = [] := List.eq_nil_of_length_eq_zero length_eq
        rw [lay, lay_nil, List.append_nil, reading?_last, Unmistakable]
        constructor
        · intro sound isBreak
          -- what is read stops at a line feed
          have taken_eq : taken.takeWhile (· ≠ '\n') = taken := (List.cons.inj (sound _ rfl)).1
          simpa using List.takeWhile_eq_self_iff.1 taken_eq _ isBreak
        · rintro noBreak found ⟨⟩
          rw [List.takeWhile_eq_self_iff.2 fun c isMember => by
            simpa using fun isBreak : c = '\n' => noBreak (isBreak ▸ isMember)]
      | cons next rest => exact reading?_lay_gap_iff (inductionHypothesis length_eq)

/-! ## Names and their texts -/

def textIn (attributes : Item) (name : String) : String :=
  ((attributes.present? name).bind (·.keyText?)).getD ""

def texts (attributes : Item) (segments : List Segment) : Reading :=
  (segments.filterMap (·.name?)).map fun name => (textIn attributes name).toList

/-- What a template shows of attributes is unmistakable; a copy always is. -/
def IsUnmistakable (attributes : Item) : Template → Prop
  | text source =>
    Unmistakable (Template.segments source.toList) (texts attributes (Template.segments source.toList))
  | copyOf _ => True

instance (attributes : Item) : ∀ template : Template, Decidable (template.IsUnmistakable attributes)
  | text source => inferInstanceAs (Decidable (Unmistakable (Template.segments source.toList)
      (texts attributes (Template.segments source.toList))))
  | copyOf _ => isTrue trivial

/-- A template that is rendered is laid out with the texts of its attributes. -/
theorem lay_texts {mode : Completeness} {source : String} {attributes : Item} {rendered : List Char}
    (isRendered : render mode source attributes segments = .ok rendered) :
    lay segments (texts attributes segments) = rendered := by
  induction segments generalizing rendered with
  | nil => exact Except.ok.inj isRendered
  | cons segment rest inductionHypothesis =>
    rcases segment with fixed | raw
    · obtain ⟨tail, isTail, answer⟩ := bind_eq_ok.1 isRendered
      obtain rfl := Except.ok.inj answer
      rw [← inductionHypothesis isTail]
      rfl
    · simp only [render] at isRendered
      split at isRendered
      · cases isRendered
      · next value value_eq =>
        split at isRendered
        · cases isRendered
        · next text text_eq =>
          obtain ⟨tail, isTail, answer⟩ := bind_eq_ok.1 isRendered
          obtain rfl := Except.ok.inj answer
          simp [texts, textIn, lay, Segment.name?, value_eq, text_eq, ← inductionHypothesis isTail]

/-- Only wanted names are found, each with the text of one of its placeholders. -/
theorem mem_of_collect {wanted : String → Bool} {names : List String} {name text : String}
    (found : (collect wanted names reading).get? name = some text) :
    wanted name = true ∧ (name, text.toList) ∈ names.zip reading := by
  fun_induction collect wanted names reading with
  | case1 first names taken reading later isWanted inductionHypothesis =>
    rw [NameMap.get?_insert] at found
    split at found
    · next same =>
      obtain rfl := Option.some.inj found
      exact ⟨same ▸ isWanted, by simp [same]⟩
    · exact (inductionHypothesis found).imp_right (List.mem_cons_of_mem _)
  | case2 first names taken reading later _ inductionHypothesis =>
    exact (inductionHypothesis found).imp_right (List.mem_cons_of_mem _)
  | case3 => cases found

/-- A key shows no other names than those of its template. -/
theorem mem_names_of_recover {template : Template} {physical : Value} {entry : String × Value}
    (isEntry : entry ∈ (template.recover physical).entries) : entry.1 ∈ template.names := by
  obtain ⟨name, value⟩ := entry
  have found := NameMap.get?_eq_some_iff.2 isEntry
  cases template with
  | copyOf attr =>
    simp only [recover, Item.single, NameMap.ofList, NameMap.insertAll, List.foldl_cons,
      List.foldl_nil, NameMap.get?_insert] at found
    split at found
    · next same => simp [names, same]
    · cases found
  | text source =>
    cases physical with
    | string key =>
      simp only [recover, NameMap.map, List.mem_map] at isEntry
      obtain ⟨⟨_, text⟩, isText, entry_eq⟩ := isEntry
      obtain ⟨rfl, -⟩ := Prod.mk.inj entry_eq
      have found := NameMap.get?_eq_some_iff.2 isText
      unfold matchText at found
      dsimp only at found
      split at found
      · cases found
      · exact List.contains_iff_mem.1 (mem_of_collect found).1
    | _ => cases found

/-- Nothing but the texts of attributes is found in a template of theirs that is unmistakable. -/
theorem text_of_matchText {mode : Completeness} {source : String} {attributes : Item}
    {rendered : List Char} {wanted : List String} {name text : String}
    (isRendered : render mode source attributes (Template.segments source.toList) = .ok rendered)
    (unmistakable : (Template.text source).IsUnmistakable attributes)
    (found : (matchText source (String.ofList rendered) wanted).get? name = some text) :
    text = textIn attributes name := by
  unfold matchText at found
  rw [String.toList_ofList, ← lay_texts isRendered] at found
  dsimp only at found
  split at found
  · cases found
  · next reading isReading =>
    have length_eq : (texts attributes (Template.segments source.toList)).length =
        ((Template.segments source.toList).filterMap (·.name?)).length := List.length_map _
    -- the rendered text is the template laid out with the texts, so what is read is these texts
    obtain rfl := (reading?_lay_iff length_eq).2 unmistakable reading isReading
    obtain ⟨-, isPair⟩ := mem_of_collect found
    rw [texts, ← List.map_prod_left_eq_zip] at isPair
    obtain ⟨other, -, pair_eq⟩ := List.mem_map.1 isPair
    obtain ⟨rfl, text_eq⟩ := Prod.mk.inj pair_eq
    exact String.toList_inj.1 text_eq.symm

end SingleTable.Template
