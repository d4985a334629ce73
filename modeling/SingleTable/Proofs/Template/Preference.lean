import Mathlib.Data.List.Pairwise
import SingleTable.Proofs.Template.Reading

/-!
# The reading that comes first

A template may lie along a text in many ways.  A matcher with backtracking tries them in turn
(`tries`): a placeholder first takes as little as it can, one that ends the template as much as it
can, and when the rest does not fit, the choice made last is made anew.  These are all the ways there
are (`mem_tries_iff`), each before those that it is preferred to (`pairwise_tries`), and what is read
is the first of them (`reading?_eq_head?`).  So what is found of a key is decided by an order on
readings alone (`matchText_prefers`).
-/

namespace SingleTable.Template

variable {segments rest : List Segment} {reading : Reading} {cs : List Char}

/-! ## What a placeholder can take -/

/-- The parts of a text that a placeholder can take, the shortest first, each with what is beyond. -/
def cuts : List Char → List (List Char × List Char)
  | [] => [([], [])]
  | c :: cs =>
    ([], c :: cs) :: if c = '\n' then [] else (cuts cs).map fun cut => (c :: cut.1, cut.2)

theorem mem_cuts_iff {taken beyond : List Char} :
    (taken, beyond) ∈ cuts cs ↔ cs = taken ++ beyond ∧ '\n' ∉ taken := by
  induction cs generalizing taken with
  | nil =>
    rw [cuts, List.mem_singleton, Prod.mk.injEq, List.nil_eq, List.append_eq_nil_iff]
    constructor
    · rintro ⟨rfl, rfl⟩
      exact ⟨⟨rfl, rfl⟩, List.not_mem_nil⟩
    · exact And.left
  | cons c cs inductionHypothesis =>
    cases taken with
    | nil =>
      rw [cuts, List.mem_cons]
      split <;> simp [eq_comm]
    | cons first taken =>
      -- a cut behind the first character is a cut of what follows, and exists only on the same line
      have later : (first :: taken, beyond) ∈ cuts (c :: cs) ↔
          c ≠ '\n' ∧ c = first ∧ (taken, beyond) ∈ cuts cs := by
        rw [cuts, List.mem_cons]
        split
        · next isBreak => simp [isBreak]
        · next notBreak => simp [notBreak, eq_comm, and_comm]
      rw [later, inductionHypothesis]
      simp only [List.cons_append, List.cons.injEq, List.mem_cons, not_or]
      constructor
      · rintro ⟨notBreak, rfl, rfl, noBreak⟩
        exact ⟨⟨rfl, rfl⟩, Ne.symm notBreak, noBreak⟩
      · rintro ⟨⟨rfl, rfl⟩, notBreak, noBreak⟩
        exact ⟨Ne.symm notBreak, rfl, rfl, noBreak⟩

theorem pairwise_cuts (cs : List Char) :
    (cuts cs).Pairwise fun cut other => cut.1.length < other.1.length := by
  induction cs with
  | nil => simp [cuts]
  | cons c cs inductionHypothesis =>
    rw [cuts, List.pairwise_cons]
    split
    · simp
    · refine ⟨?_, ?_⟩
      · intro other isOther
        obtain ⟨cut, -, rfl⟩ := List.mem_map.1 isOther
        simp
      · rw [List.pairwise_map]
        exact inductionHypothesis.imp fun shorter => by simpa using shorter

/-- The longest cut goes on to the end of the line. -/
theorem getLast?_cuts (cs : List Char) :
    (cuts cs).getLast?.map (·.1) = some (cs.takeWhile (· ≠ '\n')) := by
  induction cs with
  | nil => rfl
  | cons c cs inductionHypothesis =>
    rw [cuts]
    split
    · next isBreak => simp [isBreak]
    · next notBreak =>
      have someCut : cuts cs ≠ [] := by cases cs <;> simp [cuts]
      rw [List.getLast?_cons, List.getLast?_map]
      obtain ⟨cut, cut_eq⟩ := Option.ne_none_iff_exists'.1 (mt List.getLast?_eq_none_iff.1 someCut)
      rw [cut_eq] at inductionHypothesis ⊢
      simpa [notBreak] using inductionHypothesis

/-! ## Trying in turn -/

/-- The readings of a text in the order in which a matcher with backtracking tries them. -/
def tries : List Segment → List Char → List Reading
  | [], _ => [[]]
  | .literal fixed :: rest, cs =>
    if fixed.isPrefixOf cs then tries rest (cs.drop fixed.length) else []
  | [.placeholder _], cs => (cuts cs).reverse.map fun cut => [cut.1]
  | .placeholder _ :: next :: rest, cs =>
    (cuts cs).flatMap fun cut => (tries (next :: rest) cut.2).map (cut.1 :: ·)

/-- Every way of laying a template along a text is tried, and nothing else. -/
theorem mem_tries_iff : reading ∈ tries segments cs ↔ Lays segments reading cs := by
  induction segments generalizing reading cs with
  | nil =>
    rw [tries, List.mem_singleton]
    constructor
    · rintro rfl
      exact .done cs
    · rintro ⟨⟩
      rfl
  | cons segment rest inductionHypothesis =>
    rcases segment with fixed | raw
    · rw [tries]
      constructor
      · intro isTry
        split at isTry
        · next isPrefix =>
          obtain ⟨beyond, rfl⟩ := List.isPrefixOf_iff_prefix.1 isPrefix
          rw [List.drop_left] at isTry
          exact .literal fixed (inductionHypothesis.1 isTry)
        · cases isTry
      · rintro ⟨⟩
        rw [if_pos (List.isPrefixOf_iff_prefix.2 (List.prefix_append _ _)), List.drop_left]
        exact inductionHypothesis.2 ‹_›
    · cases rest with
      | nil =>
        simp only [tries, List.mem_map, List.mem_reverse]
        constructor
        · rintro ⟨⟨taken, beyond⟩, isCut, rfl⟩
          obtain ⟨rfl, noBreak⟩ := mem_cuts_iff.1 isCut
          exact .placeholder noBreak (.done beyond)
        · intro lays
          cases lays with
          | @placeholder _ taken _ _ beyond noBreak others =>
            cases others
            exact ⟨(taken, beyond), mem_cuts_iff.2 ⟨rfl, noBreak⟩, rfl⟩
      | cons next rest =>
        simp only [tries, List.mem_flatMap, List.mem_map]
        constructor
        · rintro ⟨⟨taken, beyond⟩, isCut, others, areTried, rfl⟩
          obtain ⟨rfl, noBreak⟩ := mem_cuts_iff.1 isCut
          exact .placeholder noBreak (inductionHypothesis.1 areTried)
        · intro lays
          cases lays with
          | @placeholder _ taken _ _ beyond noBreak others =>
            exact ⟨(taken, beyond), mem_cuts_iff.2 ⟨rfl, noBreak⟩, _, inductionHypothesis.2 others, rfl⟩

theorem head?_tries_gap_cons {raw : List Char} {next : Segment} {c : Char} :
    (tries (.placeholder raw :: next :: rest) (c :: cs)).head? =
      ((tries (next :: rest) (c :: cs)).head?.map ([] :: ·)).or
        (if c = '\n' then none
        else (tries (.placeholder raw :: next :: rest) cs).head?.map fun reading =>
          (c :: reading.headD []) :: reading.tail) := by
  simp only [tries, cuts, List.flatMap_cons, List.head?_append, List.head?_map]
  congr 1
  split
  · rfl
  · rw [List.flatMap_map, ← List.head?_map, List.map_flatMap]
    simp [Function.comp_def]

/-- What is read is what is tried first. -/
theorem reading?_eq_head? (segments : List Segment) (cs : List Char) :
    reading? segments cs = (tries segments cs).head? := by
  induction segments generalizing cs with
  | nil => rw [reading?_nil, tries, List.head?_cons]
  | cons segment rest inductionHypothesis =>
    rcases segment with fixed | raw
    · rw [reading?_literal, tries]
      split
      · exact inductionHypothesis _
      · rfl
    · cases rest with
      | nil =>
        obtain ⟨cut, cut_eq, taken_eq⟩ := Option.map_eq_some_iff.1 (getLast?_cuts cs)
        rw [reading?_last, tries, List.head?_map, List.head?_reverse, cut_eq, ← taken_eq,
          Option.map_some]
      | cons next rest =>
        induction cs with
        | nil => simp [reading?_gap_nil, inductionHypothesis, tries, cuts]
        | cons c cs gapHypothesis =>
          rw [reading?_gap_cons, head?_tries_gap_cons, inductionHypothesis, ← gapHypothesis]
          cases (tries (next :: rest) (c :: cs)).head? with
          | some others => rfl
          | none =>
            cases found : reading? (.placeholder raw :: next :: rest) cs with
            | none => simp
            | some reading =>
              obtain ⟨taken, others, -, rfl, -⟩ := reading?_gap_iff.1 found
              simp

/-! ## The order of preference -/

/-- One reading is preferred to another: of the first placeholders that take different lengths it
takes less, or more if that placeholder ends the template. -/
def Prefers : List Segment → Reading → Reading → Prop
  | .literal _ :: rest, reading, other => Prefers rest reading other
  | [.placeholder _], taken :: _, otherTaken :: _ => otherTaken.length < taken.length
  | .placeholder _ :: next :: rest, taken :: reading, otherTaken :: other =>
    taken.length < otherTaken.length ∨
      taken.length = otherTaken.length ∧ Prefers (next :: rest) reading other
  | _, _, _ => False

/-- A reading is tried before those that it is preferred to. -/
theorem pairwise_tries (segments : List Segment) (cs : List Char) :
    (tries segments cs).Pairwise (Prefers segments) := by
  induction segments generalizing cs with
  | nil => simp [tries]
  | cons segment rest inductionHypothesis =>
    rcases segment with fixed | raw
    · rw [tries]
      split
      · exact inductionHypothesis _
      · exact .nil
    · cases rest with
      | nil =>
        rw [tries, List.pairwise_map, List.pairwise_reverse]
        exact pairwise_cuts cs
      | cons next rest =>
        rw [tries, List.pairwise_flatMap]
        constructor
        · intro cut _
          rw [List.pairwise_map]
          exact (inductionHypothesis cut.2).imp fun prefers => .inr ⟨rfl, prefers⟩
        · refine (pairwise_cuts cs).imp fun shorter reading isTry other isOther => ?_
          obtain ⟨_, -, rfl⟩ := List.mem_map.1 isTry
          obtain ⟨_, -, rfl⟩ := List.mem_map.1 isOther
          exact .inl shorter

/-- What is read lies along the text, and is preferred to every other reading that does. -/
theorem prefers_of_reading? (found : reading? segments cs = some reading) :
    ∀ other, Lays segments other cs → other ≠ reading → Prefers segments reading other := by
  intro other lays differs
  rw [reading?_eq_head?, List.head?_eq_some_iff] at found
  obtain ⟨later, tries_eq⟩ := found
  have isTry := mem_tries_iff.2 lays
  have ordered := pairwise_tries segments cs
  rw [tries_eq] at isTry ordered
  exact (List.pairwise_cons.1 ordered).1 other ((List.mem_cons.1 isTry).resolve_left differs)

/-! ## What is found of a key -/

def textOf? (segments : List Segment) (reading : Reading) (name : String) : Option String :=
  (((segments.filterMap (·.name?)).zip reading).lookup name).map String.ofList

theorem get?_collect (wanted : String → Bool) (names : List String) (reading : Reading)
    (name : String) : (collect wanted names reading).get? name =
      if wanted name then ((names.zip reading).lookup name).map String.ofList else none := by
  -- of several equal names the first counts in both; the collection inserts it last
  fun_induction collect wanted names reading with
  | case1 first names taken reading later isWanted inductionHypothesis =>
    rw [NameMap.get?_insert, List.zip_cons_cons, List.lookup_cons]
    split
    · next same =>
      subst same
      simp [isWanted]
    · next differs =>
      rw [beq_false_of_ne (Ne.symm differs)]
      exact inductionHypothesis
  | case2 first names taken reading later notWanted inductionHypothesis =>
    rw [inductionHypothesis, List.zip_cons_cons, List.lookup_cons]
    split
    · next isWanted =>
      have differs : name ≠ first := by
        rintro rfl
        exact notWanted isWanted
      rw [beq_false_of_ne differs]
    · rfl
  | case3 names reading noPair =>
    have zip_eq : names.zip reading = [] := by
      cases names with
      | nil => rfl
      | cons first names =>
        cases reading with
        | nil => rfl
        | cons taken reading => exact absurd rfl (noPair first names taken reading · rfl)
    simp [zip_eq]

theorem get?_matchText {source physical : String}
    (found : reading? (Template.segments source.toList) physical.toList = some reading)
    (wanted : List String) (name : String) : (matchText source physical wanted).get? name =
      if name ∈ wanted then textOf? (Template.segments source.toList) reading name else none := by
  simp only [matchText, found, get?_collect, textOf?, List.contains_iff_mem]

/-- Of a text that a template does not fit nothing is found.  Of any other, each wanted name is found
with the text that its first placeholder takes in the reading that is preferred to all others. -/
theorem matchText_prefers (source physical : String) (wanted : List String) :
    (¬ Fits (Template.segments source.toList) physical.toList ∧ matchText source physical wanted = ∅) ∨
      ∃ reading, Lays (Template.segments source.toList) reading physical.toList ∧
        (∀ other, Lays (Template.segments source.toList) other physical.toList → other ≠ reading →
          Prefers (Template.segments source.toList) reading other) ∧
        ∀ name, (matchText source physical wanted).get? name =
          if name ∈ wanted then textOf? (Template.segments source.toList) reading name else none := by
  cases found : reading? (Template.segments source.toList) physical.toList with
  | none => exact .inl ⟨reading?_eq_none_iff.1 found, by simp [matchText, found]⟩
  | some reading =>
    exact .inr ⟨reading, lays_of_reading? found, prefers_of_reading? found, get?_matchText found wanted⟩

/-- The first placeholder takes as little as it can and the last as much, although the text could be
cut in five other ways. -/
example : tries (Template.segments "\x7b\x7ba\x7d\x7d-\x7b\x7bb\x7d\x7d".toList) "1-2-3\n4".toList =
    [["1".toList, "2-3".toList], ["1".toList, "2-".toList], ["1".toList, "2".toList],
      ["1".toList, []], ["1-2".toList, "3".toList], ["1-2".toList, []]] := by
  decide +kernel

end SingleTable.Template
