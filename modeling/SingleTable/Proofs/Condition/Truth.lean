import SingleTable.Proofs.Condition.Success
import SingleTable.Proofs.Service.Evaluation

/-!
# Whether a condition is true

A condition is true or not once this is known of its tests: `all` is true where all its parts are,
`any` where one of them is, and `not` where its part is not (`Condition.isTrue`).  What a condition
means to the service is less than that, since parts that test nothing are left out before the others
are joined (`Condition.truth?`, `Condition.map_holds_meaning`).  Nothing is lost if each of these
parts has the truth that makes no difference where it stands: true among parts of which all must
hold, false among parts of which one must (`Condition.isTrue_eq_getD`).
-/

namespace SingleTable

open Grammar

/-! ## Connectives -/

namespace Connective

def combine : Connective → List Bool → Bool
  | and, truths => truths.all id
  | or, truths => truths.any id

def neutral : Connective → Bool
  | and => true
  | or => false

/-- Whether a connective holds of the truths that are known; if none is, there is no answer. -/
def combine? (connective : Connective) (truths : List (Option Bool)) : Option Bool :=
  match truths.filterMap id with
  | [] => none
  | known => some (connective.combine known)

variable (connective : Connective)

theorem combine_singleton (truth : Bool) : connective.combine [truth] = truth := by
  cases connective <;> simp [combine]

theorem combine?_none_cons (truths : List (Option Bool)) :
    connective.combine? (none :: truths) = connective.combine? truths := rfl

theorem combine?_some_cons (truth : Bool) (truths : List (Option Bool)) :
    connective.combine? (some truth :: truths) =
      some (connective.combine (truth :: truths.filterMap id)) := rfl

theorem combine?_singleton (truth : Option Bool) : connective.combine? [truth] = truth := by
  cases truth with
  | none => rfl
  | some truth => exact congrArg some (connective.combine_singleton truth)

theorem combine?_eq_none_iff {truths : List (Option Bool)} :
    connective.combine? truths = none ↔ ∀ truth ∈ truths, truth = none := by
  induction truths with
  | nil => simp [combine?]
  | cons truth truths inductionHypothesis =>
    cases truth with
    | none => simp [combine?_none_cons, inductionHypothesis]
    | some truth => simp [combine?_some_cons]

/-- Leaving out what is not known is the same as taking it to make no difference. -/
theorem getD_combine? (truths : List (Option Bool)) :
    (connective.combine? truths).getD connective.neutral =
      connective.combine (truths.map (·.getD connective.neutral)) := by
  have known_eq : (connective.combine? truths).getD connective.neutral =
      connective.combine (truths.filterMap id) := by
    unfold combine?
    split
    · next nothing =>
      rw [nothing]
      cases connective <;> rfl
    · rfl
  rw [known_eq]
  clear known_eq
  induction truths with
  | nil => rfl
  | cons truth truths inductionHypothesis =>
    cases connective <;> cases truth <;> simp_all [combine, neutral]

/-- Formulas joined from left to right hold as the connective does of those there are. -/
theorem map_holds_foldl_join (service : Service) (item : Item)
    (meanings : List (Option (Formula (Predicate (List PathSegment) Value))))
    (start : Option (Formula (Predicate (List PathSegment) Value))) :
    (meanings.foldl connective.join start).map (service.holds item) =
      connective.combine? ((start :: meanings).map (·.map (service.holds item))) := by
  induction meanings generalizing start with
  | nil => exact (connective.combine?_singleton _).symm
  | cons meaning meanings inductionHypothesis =>
    rw [List.foldl_cons, inductionHypothesis]
    cases start with
    | none => rfl
    | some start =>
      cases meaning with
      | none => rfl
      | some meaning =>
        cases connective <;>
          simp [join, apply, Service.holds, combine, combine?_some_cons, Bool.and_assoc, Bool.or_assoc]

end Connective

/-! ## Trees -/

namespace Condition

mutual

def isTrue (judge : String → AttributeTest → Bool) : Condition → Bool
  | .test path attributeTest => judge path attributeTest
  | .all conditions => (areTrue judge conditions).all id
  | .any conditions => (areTrue judge conditions).any id
  | .not condition => !condition.isTrue judge

def areTrue (judge : String → AttributeTest → Bool) : List Condition → List Bool
  | [] => []
  | condition :: conditions => condition.isTrue judge :: areTrue judge conditions

end

mutual

/-- The truth of a condition when parts that test nothing are left out; there is none if it tests
nothing itself. -/
def truth? (judge : String → AttributeTest → Bool) : Condition → Option Bool
  | .test path attributeTest => some (judge path attributeTest)
  | .all conditions => Connective.and.combine? (truths judge conditions)
  | .any conditions => Connective.or.combine? (truths judge conditions)
  | .not condition => (condition.truth? judge).map (!·)

/-- The truths of several conditions when parts that test nothing are left out. -/
def truths (judge : String → AttributeTest → Bool) : List Condition → List (Option Bool)
  | [] => []
  | condition :: conditions => condition.truth? judge :: truths judge conditions

end

section Truth

variable {judge : String → AttributeTest → Bool}

mutual

theorem truth?_eq_none_iff : ∀ {condition : Condition},
    condition.truth? judge = none ↔ condition.tests = []
  | .test path attributeTest => by simp [truth?, tests]
  | .all conditions => by rw [truth?, Connective.combine?_eq_none_iff, tests, truths_eq_none_iff]
  | .any conditions => by rw [truth?, Connective.combine?_eq_none_iff, tests, truths_eq_none_iff]
  | .not condition => by rw [truth?, Option.map_eq_none_iff, tests, truth?_eq_none_iff]

theorem truths_eq_none_iff : ∀ {conditions : List Condition},
    (∀ truth ∈ truths judge conditions, truth = none) ↔ allTests conditions = []
  | [] => by simp [truths, allTests]
  | condition :: conditions => by
    rw [truths, List.forall_mem_cons, truth?_eq_none_iff, truths_eq_none_iff, allTests,
      List.append_eq_nil_iff]

end

mutual

/-- The truth of a condition is decided by its tests. -/
theorem isTrue_congr {judge' : String → AttributeTest → Bool} : ∀ {condition : Condition},
    (∀ leaf ∈ condition.tests, judge leaf.1 leaf.2 = judge' leaf.1 leaf.2) →
      condition.isTrue judge = condition.isTrue judge'
  | .test path attributeTest, same => same (path, attributeTest) (by simp [tests])
  | .all conditions, same => by rw [isTrue, isTrue, areTrue_congr same]
  | .any conditions, same => by rw [isTrue, isTrue, areTrue_congr same]
  | .not condition, same => by
    have inner : condition.isTrue judge = condition.isTrue judge' := isTrue_congr same
    rw [isTrue, isTrue, inner]

theorem areTrue_congr {judge' : String → AttributeTest → Bool} : ∀ {conditions : List Condition},
    (∀ leaf ∈ allTests conditions, judge leaf.1 leaf.2 = judge' leaf.1 leaf.2) →
      areTrue judge conditions = areTrue judge' conditions
  | [], _ => rfl
  | condition :: conditions, same => by
    obtain ⟨sameFirst, sameOthers⟩ := List.forall_mem_append.1 same
    rw [areTrue, areTrue, isTrue_congr sameFirst, areTrue_congr sameOthers]

end

/-- A condition that tests nothing is always true or never. -/
theorem isTrue_of_tests_eq_nil {condition : Condition} (nothing : condition.tests = [])
    (judge judge' : String → AttributeTest → Bool) : condition.isTrue judge = condition.isTrue judge' :=
  isTrue_congr (by simp [nothing])

end Truth

mutual

/-- Whether a condition stays as true as it is when parts that test nothing are left out, provided
that `neutral` makes no difference in its own place. -/
def losesNothing (neutral : Bool) : Condition → Bool
  | .test _ _ => true
  | .all conditions =>
    if (allTests conditions).isEmpty then (Condition.all conditions).isTrue (fun _ _ => false) == neutral
    else allLoseNothing true conditions
  | .any conditions =>
    if (allTests conditions).isEmpty then (Condition.any conditions).isTrue (fun _ _ => false) == neutral
    else allLoseNothing false conditions
  | .not condition => condition.losesNothing !neutral

def allLoseNothing (neutral : Bool) : List Condition → Bool
  | [] => true
  | condition :: conditions => condition.losesNothing neutral && allLoseNothing neutral conditions

end

section Loss

variable {judge : String → AttributeTest → Bool}

/-- A condition that tests nothing may be left out where its truth makes no difference. -/
theorem losesNothing_of_tests_eq_nil : ∀ {condition : Condition} {neutral : Bool},
    condition.tests = [] → condition.losesNothing neutral = (condition.isTrue judge == neutral)
  | .test path attributeTest, neutral, nothing => by simp [tests] at nothing
  | .all conditions, neutral, nothing => by
    have isEmpty : (allTests conditions).isEmpty = true := List.isEmpty_iff.2 nothing
    rw [losesNothing, if_pos isEmpty, isTrue_of_tests_eq_nil nothing judge]
  | .any conditions, neutral, nothing => by
    have isEmpty : (allTests conditions).isEmpty = true := List.isEmpty_iff.2 nothing
    rw [losesNothing, if_pos isEmpty, isTrue_of_tests_eq_nil nothing judge]
  | .not condition, neutral, nothing => by
    have inner : condition.losesNothing (!neutral) = (condition.isTrue judge == !neutral) :=
      losesNothing_of_tests_eq_nil nothing
    rw [losesNothing, inner, isTrue]
    cases condition.isTrue judge <;> cases neutral <;> rfl

theorem isTrue_eq_getD_of_tests_eq_nil {condition : Condition} {neutral : Bool}
    (nothing : condition.tests = []) (lossless : condition.losesNothing neutral = true) :
    condition.isTrue judge = (condition.truth? judge).getD neutral := by
  rw [losesNothing_of_tests_eq_nil nothing] at lossless
  rw [truth?_eq_none_iff.2 nothing]
  exact beq_iff_eq.1 lossless

/-- Joined parts that lose nothing, one of which tests something. -/
theorem combine_of_areTrue (connective : Connective) {neutral : Bool} {conditions : List Condition}
    (areTrue_eq : areTrue judge conditions = (truths judge conditions).map (·.getD connective.neutral))
    (filled : allTests conditions ≠ []) :
    connective.combine (areTrue judge conditions) =
      (connective.combine? (truths judge conditions)).getD neutral := by
  rw [areTrue_eq, ← connective.getD_combine?]
  cases known : connective.combine? (truths judge conditions) with
  | none => exact absurd (truths_eq_none_iff.1 ((connective.combine?_eq_none_iff).1 known)) filled
  | some truth => rfl

mutual

/-- A condition that loses nothing is as true as what is left of it, or as what makes no difference
if nothing is left. -/
theorem isTrue_eq_getD : ∀ {condition : Condition} {neutral : Bool},
    condition.losesNothing neutral = true →
      condition.isTrue judge = (condition.truth? judge).getD neutral
  | .test path attributeTest, neutral, _ => rfl
  | .all conditions, neutral, lossless => by
    by_cases nothing : allTests conditions = []
    · exact isTrue_eq_getD_of_tests_eq_nil nothing lossless
    · rw [losesNothing, if_neg (by simpa using nothing)] at lossless
      exact combine_of_areTrue .and (areTrue_eq_map lossless) nothing
  | .any conditions, neutral, lossless => by
    by_cases nothing : allTests conditions = []
    · exact isTrue_eq_getD_of_tests_eq_nil nothing lossless
    · rw [losesNothing, if_neg (by simpa using nothing)] at lossless
      exact combine_of_areTrue .or (areTrue_eq_map lossless) nothing
  | .not condition, neutral, lossless => by
    rw [losesNothing] at lossless
    rw [isTrue, truth?, isTrue_eq_getD lossless]
    cases condition.truth? judge <;> simp

theorem areTrue_eq_map : ∀ {conditions : List Condition} {neutral : Bool},
    allLoseNothing neutral conditions = true →
      areTrue judge conditions = (truths judge conditions).map (·.getD neutral)
  | [], _, _ => rfl
  | condition :: conditions, neutral, lossless => by
    rw [allLoseNothing, Bool.and_eq_true] at lossless
    rw [areTrue, truths, List.map_cons, isTrue_eq_getD lossless.1, areTrue_eq_map lossless.2]

end

end Loss

mutual

/-- A condition without empty lists tests something. -/
theorem tests_ne_nil_of_isFilled : ∀ {condition : Condition}, condition.isFilled = true →
    condition.tests ≠ []
  | .test path attributeTest, _ => by simp [tests]
  | .all conditions, filled => by
    simp only [isFilled, Bool.and_eq_true] at filled
    exact allTests_ne_nil_of_allFilled filled.1 filled.2
  | .any conditions, filled => by
    simp only [isFilled, Bool.and_eq_true] at filled
    exact allTests_ne_nil_of_allFilled filled.1 filled.2
  | .not condition, filled => by
    rw [tests]
    exact tests_ne_nil_of_isFilled filled

theorem allTests_ne_nil_of_allFilled : ∀ {conditions : List Condition},
    (!conditions.isEmpty) = true → allFilled conditions = true → allTests conditions ≠ []
  | [], nonempty, _ => by simp at nonempty
  | condition :: conditions, _, filled => by
    rw [allFilled, Bool.and_eq_true] at filled
    simp [allTests, tests_ne_nil_of_isFilled filled.1]

end

mutual

/-- A condition without empty lists loses nothing, wherever it stands. -/
theorem losesNothing_of_isFilled : ∀ {condition : Condition} (neutral : Bool),
    condition.isFilled = true → condition.losesNothing neutral = true
  | .test path attributeTest, _, _ => rfl
  | .all conditions, neutral, filled => by
    simp only [isFilled, Bool.and_eq_true] at filled
    rw [losesNothing, if_neg (by simpa using allTests_ne_nil_of_allFilled filled.1 filled.2)]
    exact allLoseNothing_of_allFilled true filled.2
  | .any conditions, neutral, filled => by
    simp only [isFilled, Bool.and_eq_true] at filled
    rw [losesNothing, if_neg (by simpa using allTests_ne_nil_of_allFilled filled.1 filled.2)]
    exact allLoseNothing_of_allFilled false filled.2
  | .not condition, neutral, filled => by
    rw [losesNothing]
    exact losesNothing_of_isFilled _ filled

theorem allLoseNothing_of_allFilled : ∀ {conditions : List Condition} (neutral : Bool),
    allFilled conditions = true → allLoseNothing neutral conditions = true
  | [], _, _ => rfl
  | condition :: conditions, neutral, filled => by
    rw [allFilled, Bool.and_eq_true] at filled
    rw [allLoseNothing, losesNothing_of_isFilled neutral filled.1,
      allLoseNothing_of_allFilled neutral filled.2]
    rfl

end

end Condition

/-! ## What a condition means to the service -/

/-- A test that has as many values as it takes says something about every operand. -/
theorem AttributeTest.exists_predicate {test : AttributeTest} (counts : ¬ test.Miscounts)
    (operand : Operand (List PathSegment) Value) : ∃ predicate, test.predicate? operand = some predicate := by
  induction test generalizing operand with
  | compare | beginsWith | contains | present | absent | hasType => exact ⟨_, rfl⟩
  | between values =>
    obtain ⟨low, high, rfl⟩ := List.length_eq_two.1 (Decidable.not_not.1 counts)
    exact ⟨_, rfl⟩
  | inList values =>
    obtain ⟨first, others, rfl⟩ := List.exists_cons_of_ne_nil counts
    exact ⟨_, rfl⟩
  | size test inductionHypothesis => exact inductionHypothesis counts _

namespace Service

variable (service : Service) (item : Item)

def judges (path : String) (test : AttributeTest) : Bool :=
  (test.predicate? (.path (Path.segments path))).any fun predicate => service.holds item (.test predicate)

mutual

/-- The meaning of a condition is as true as the condition is when parts that test nothing are left
out. -/
theorem map_holds_meaning : ∀ {condition : Condition},
    (∀ leaf ∈ condition.tests, ¬ leaf.2.Miscounts) →
      condition.meaning.map (service.holds item) = condition.truth? (service.judges item)
  | .test path attributeTest, count => by
    obtain ⟨predicate, predicate_eq⟩ := attributeTest.exists_predicate
      (count (path, attributeTest) (by simp [Condition.tests])) (.path (Path.segments path))
    simp [Condition.meaning, Condition.truth?, judges, predicate_eq]
  | .all conditions, count => by
    rw [Condition.meaning, Condition.truth?, Connective.map_holds_foldl_join, List.map_cons,
      map_holds_meanings count]
    rfl
  | .any conditions, count => by
    rw [Condition.meaning, Condition.truth?, Connective.map_holds_foldl_join, List.map_cons,
      map_holds_meanings count]
    rfl
  | .not condition, count => by
    have inner : condition.meaning.map (service.holds item) = condition.truth? (service.judges item) :=
      map_holds_meaning count
    rw [Condition.meaning, Condition.truth?, ← inner]
    cases condition.meaning <;> rfl

theorem map_holds_meanings : ∀ {conditions : List Condition},
    (∀ leaf ∈ Condition.allTests conditions, ¬ leaf.2.Miscounts) →
      (Condition.meanings conditions).map (·.map (service.holds item)) =
        Condition.truths (service.judges item) conditions
  | [], _ => rfl
  | condition :: conditions, count => by
    obtain ⟨countFirst, countOthers⟩ := List.forall_mem_append.1 count
    rw [Condition.meanings, List.map_cons, map_holds_meaning countFirst, map_holds_meanings countOthers,
      Condition.truths]

end

end Service

end SingleTable
