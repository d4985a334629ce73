import SingleTable.Proofs.Expression.Token

/-!
# The grammar of conditions

How the service reads a condition.  `NOT` binds tighter than `AND`, which binds tighter than
`OR`; both associate to the left, parentheses override, and the `AND` after `BETWEEN` belongs
to it.  A condition is read as a `Formula` over `Predicate`s whose operands still consist of
placeholders; `Formula.resolve` replaces these by what they stand for.

`Formula.tokens` writes a formula with each side of a connective in parentheses.  Reading is
the inverse of this writing (`parseFormula_tokens`), whatever the formula is.
-/

namespace SingleTable.Grammar

/-! ## Syntax trees -/

/-- One segment of a path as it is written: a placeholder and the digits of list indexes. -/
structure SegmentSyntax where
  placeholder : String
  indexes : List String
  deriving DecidableEq, Repr

/-- A path as it is written. -/
structure PathSyntax where
  first : SegmentSyntax
  others : List SegmentSyntax
  deriving DecidableEq, Repr

/-- What a predicate looks at, over some form of paths and of values. -/
inductive Operand (π ν : Type) where
  | path (path : π)
  | value (value : ν)
  /-- The size of another operand. -/
  | size (operand : Operand π ν)
  deriving DecidableEq, Repr

/-- A condition without connectives. -/
inductive Predicate (π ν : Type) where
  | compare (left : Operand π ν) (comparison : Comparison) (right : Operand π ν)
  | between (operand low high : Operand π ν)
  | oneOf (operand first : Operand π ν) (others : List (Operand π ν))
  | call (function : AttributeFunction) (operand : Operand π ν) (argument : Option (Operand π ν))
  deriving DecidableEq, Repr

/-- A condition over some kind of tests. -/
inductive Formula (α : Type) where
  | test (test : α)
  | and (left right : Formula α)
  | or (left right : Formula α)
  | not (formula : Formula α)
  deriving DecidableEq, Repr

/-- A condition as it is written. -/
abbrev FormulaSyntax := Formula (Predicate PathSyntax String)

/-! ## Reading tokens -/

def parseSegments : List Token → List String × List SegmentSyntax × List Token
  | .openBracket :: .number digits :: .closeBracket :: rest =>
    let (indexes, segments, rest) := parseSegments rest
    (digits :: indexes, segments, rest)
  | .dot :: .name placeholder :: rest =>
    let (indexes, segments, rest) := parseSegments rest
    ([], ⟨placeholder, indexes⟩ :: segments, rest)
  | rest => ([], [], rest)

def parsePath : List Token → Option (PathSyntax × List Token)
  | .name placeholder :: rest =>
    let (indexes, segments, rest) := parseSegments rest
    some (⟨⟨placeholder, indexes⟩, segments⟩, rest)
  | _ => none

def parseOperand : List Token → Option (Operand PathSyntax String × List Token)
  | .size :: .openParen :: rest =>
    match parseOperand rest with
    | some (operand, .closeParen :: rest) => some (.size operand, rest)
    | _ => none
  | .value placeholder :: rest => some (.value placeholder, rest)
  | tokens => (parsePath tokens).map fun (path, rest) => (.path path, rest)

def parseOthers : Nat → List Token → Option (List (Operand PathSyntax String) × List Token)
  | bound + 1, .comma :: rest =>
    match parseOperand rest with
    | some (operand, rest) =>
      (parseOthers bound rest).map fun (operands, rest) => (operand :: operands, rest)
    | none => none
  | _, rest => some ([], rest)

def parseCallEnd (function : AttributeFunction) (operand : Operand PathSyntax String) :
    List Token → Option (Predicate PathSyntax String × List Token)
  | .closeParen :: rest => some (.call function operand none, rest)
  | .comma :: rest =>
    match parseOperand rest with
    | some (argument, .closeParen :: rest) => some (.call function operand (some argument), rest)
    | _ => none
  | _ => none

def parsePredicateEnd (operand : Operand PathSyntax String) :
    List Token → Option (Predicate PathSyntax String × List Token)
  | .comparison comparison :: rest =>
    (parseOperand rest).map fun (right, rest) => (.compare operand comparison right, rest)
  | .between :: rest =>
    match parseOperand rest with
    | some (low, .and :: rest) =>
      (parseOperand rest).map fun (high, rest) => (.between operand low high, rest)
    | _ => none
  | .inList :: .openParen :: rest =>
    match parseOperand rest with
    | some (first, rest) =>
      match parseOthers rest.length rest with
      | some (others, .closeParen :: rest) => some (.oneOf operand first others, rest)
      | _ => none
    | none => none
  | _ => none

def parsePredicate : List Token → Option (Predicate PathSyntax String × List Token)
  | .function function :: .openParen :: rest =>
    match parseOperand rest with
    | some (operand, rest) => parseCallEnd function operand rest
    | none => none
  | tokens =>
    match parseOperand tokens with
    | some (operand, rest) => parsePredicateEnd operand rest
    | none => none

mutual

/-- Conditions joined by `OR`; the number bounds the depth of the reading. -/
def parseDisjunction : Nat → List Token → Option (FormulaSyntax × List Token)
  | 0, _ => none
  | bound + 1, tokens =>
    match parseConjunction bound tokens with
    | some (formula, rest) => parseDisjuncts bound formula rest
    | none => none

def parseDisjuncts : Nat → FormulaSyntax → List Token → Option (FormulaSyntax × List Token)
  | 0, _, _ => none
  | bound + 1, formula, .or :: rest =>
    match parseConjunction bound rest with
    | some (next, rest) => parseDisjuncts bound (.or formula next) rest
    | none => none
  | _ + 1, formula, rest => some (formula, rest)

def parseConjunction : Nat → List Token → Option (FormulaSyntax × List Token)
  | 0, _ => none
  | bound + 1, tokens =>
    match parseNegation bound tokens with
    | some (formula, rest) => parseConjuncts bound formula rest
    | none => none

def parseConjuncts : Nat → FormulaSyntax → List Token → Option (FormulaSyntax × List Token)
  | 0, _, _ => none
  | bound + 1, formula, .and :: rest =>
    match parseNegation bound rest with
    | some (next, rest) => parseConjuncts bound (.and formula next) rest
    | none => none
  | _ + 1, formula, rest => some (formula, rest)

def parseNegation : Nat → List Token → Option (FormulaSyntax × List Token)
  | 0, _ => none
  | bound + 1, .not :: rest =>
    match parseNegation bound rest with
    | some (formula, rest) => some (.not formula, rest)
    | none => none
  | bound + 1, .openParen :: rest =>
    match parseDisjunction bound rest with
    | some (formula, .closeParen :: rest) => some (formula, rest)
    | _ => none
  | _ + 1, tokens => (parsePredicate tokens).map fun (predicate, rest) => (.test predicate, rest)

end

/-- The condition that all tokens make up together.  No condition is deeper than four times
the number of its tokens. -/
def parseFormula (tokens : List Token) : Option FormulaSyntax :=
  match parseDisjunction (4 * tokens.length) tokens with
  | some (formula, []) => some formula
  | _ => none

/-! ## Writing tokens -/

def indexTokens (indexes : List String) : List Token :=
  indexes.flatMap fun digits => [.openBracket, .number digits, .closeBracket]

def segmentTokens (segments : List SegmentSyntax) : List Token :=
  segments.flatMap fun segment => .dot :: .name segment.placeholder :: indexTokens segment.indexes

def PathSyntax.tokens (path : PathSyntax) : List Token :=
  .name path.first.placeholder :: (indexTokens path.first.indexes ++ segmentTokens path.others)

def Operand.tokens : Operand PathSyntax String → List Token
  | .path written => written.tokens
  | .value placeholder => [.value placeholder]
  | .size operand => .size :: .openParen :: (operand.tokens ++ [.closeParen])

def otherTokens (operands : List (Operand PathSyntax String)) : List Token :=
  operands.flatMap fun operand => .comma :: operand.tokens

def Predicate.tokens : Predicate PathSyntax String → List Token
  | .compare left comparison right => left.tokens ++ .comparison comparison :: right.tokens
  | .between operand low high => operand.tokens ++ .between :: (low.tokens ++ .and :: high.tokens)
  | .oneOf operand first others =>
    operand.tokens ++ .inList :: .openParen :: (first.tokens ++ (otherTokens others ++ [.closeParen]))
  | .call function operand none =>
    .function function :: .openParen :: (operand.tokens ++ [.closeParen])
  | .call function operand (some argument) =>
    .function function :: .openParen :: (operand.tokens ++ .comma :: (argument.tokens ++ [.closeParen]))

def Formula.tokens : FormulaSyntax → List Token
  | .test predicate => predicate.tokens
  | .and left right =>
    .openParen :: (left.tokens ++ .closeParen :: .and :: .openParen :: (right.tokens ++ [.closeParen]))
  | .or left right =>
    .openParen :: (left.tokens ++ .closeParen :: .or :: .openParen :: (right.tokens ++ [.closeParen]))
  | .not formula => .not :: .openParen :: (formula.tokens ++ [.closeParen])

/-! ## Reading what was written -/

/-- Tokens that do not continue a path. -/
def EndsPath (rest : List Token) : Prop := ∀ token ∈ rest.head?, token ≠ .dot ∧ token ≠ .openBracket

@[simp] theorem endsPath_nil : EndsPath [] := by simp [EndsPath]

@[simp] theorem endsPath_cons {token : Token} {rest : List Token} :
    EndsPath (token :: rest) ↔ token ≠ .dot ∧ token ≠ .openBracket := by
  simp [EndsPath]

theorem parseSegments_of_endsPath {rest : List Token} (ends : EndsPath rest) :
    parseSegments rest = ([], [], rest) := by
  unfold parseSegments
  split
  · simp at ends
  · simp at ends
  · rfl

theorem parseSegments_indexTokens (indexes : List String) (rest : List Token) :
    parseSegments (indexTokens indexes ++ rest) =
      (indexes ++ (parseSegments rest).1, (parseSegments rest).2) := by
  induction indexes with
  | nil => rfl
  | cons digits indexes inductionHypothesis =>
    change parseSegments (.openBracket :: .number digits :: .closeBracket ::
      (indexTokens indexes ++ rest)) = _
    rw [parseSegments, inductionHypothesis]
    rfl

theorem parseSegments_segmentTokens (segments : List SegmentSyntax) {rest : List Token}
    (ends : EndsPath rest) :
    parseSegments (segmentTokens segments ++ rest) = ([], segments, rest) := by
  induction segments with
  | nil => exact parseSegments_of_endsPath ends
  | cons segment segments inductionHypothesis =>
    have shape : segmentTokens (segment :: segments) ++ rest =
        .dot :: .name segment.placeholder ::
          (indexTokens segment.indexes ++ (segmentTokens segments ++ rest)) := by
      simp [segmentTokens]
    rw [shape, parseSegments, parseSegments_indexTokens, inductionHypothesis]
    simp

theorem parsePath_tokens (path : PathSyntax) {rest : List Token} (ends : EndsPath rest) :
    parsePath (path.tokens ++ rest) = some (path, rest) := by
  have shape : path.tokens ++ rest =
      .name path.first.placeholder :: (indexTokens path.first.indexes ++
        (segmentTokens path.others ++ rest)) := by
    simp [PathSyntax.tokens]
  rw [shape, parsePath, parseSegments_indexTokens, parseSegments_segmentTokens _ ends]
  simp

theorem parseOperand_tokens (operand : Operand PathSyntax String) {rest : List Token}
    (ends : EndsPath rest) : parseOperand (operand.tokens ++ rest) = some (operand, rest) := by
  induction operand generalizing rest with
  | path path =>
    have read := parsePath_tokens path ends
    simp only [Operand.tokens, PathSyntax.tokens, List.cons_append] at read ⊢
    rw [parseOperand, read]
    · rfl
    · simp
    · simp
  | value placeholder => simp [Operand.tokens, parseOperand]
  | size operand inductionHypothesis =>
    simp only [Operand.tokens, List.cons_append, List.append_assoc]
    rw [parseOperand, inductionHypothesis (by simp)]
    rfl

theorem length_otherTokens (operands : List (Operand PathSyntax String)) :
    operands.length ≤ (otherTokens operands).length := by
  induction operands with
  | nil => simp
  | cons operand operands inductionHypothesis =>
    simp only [otherTokens, List.flatMap_cons, List.cons_append, List.length_cons,
      List.length_append] at inductionHypothesis ⊢
    omega

theorem endsPath_otherTokens (operands : List (Operand PathSyntax String)) {rest : List Token}
    (ends : EndsPath rest) : EndsPath (otherTokens operands ++ rest) := by
  cases operands with
  | nil => exact ends
  | cons operand operands => simp [otherTokens]

theorem parseOthers_tokens (operands : List (Operand PathSyntax String)) {bound : Nat}
    (bounded : operands.length ≤ bound) (rest : List Token) :
    parseOthers bound (otherTokens operands ++ .closeParen :: rest) =
      some (operands, .closeParen :: rest) := by
  -- each operand uses up one step of the bound and leaves the same rest
  induction operands generalizing bound with
  | nil => cases bound <;> simp [otherTokens, parseOthers]
  | cons operand operands inductionHypothesis =>
    cases bound with
    | zero => simp at bounded
    | succ bound =>
      have shape : otherTokens (operand :: operands) ++ .closeParen :: rest =
          .comma :: (operand.tokens ++ (otherTokens operands ++ .closeParen :: rest)) := by
        simp [otherTokens]
      have ends : EndsPath (otherTokens operands ++ .closeParen :: rest) :=
        endsPath_otherTokens operands (by simp)
      rw [shape, parseOthers, parseOperand_tokens operand ends]
      simp only [inductionHypothesis (Nat.le_of_succ_le_succ bounded), Option.map_some]

/-- An operand is not taken for the start of a call. -/
theorem parsePredicate_operand (operand : Operand PathSyntax String) (rest : List Token) :
    parsePredicate (operand.tokens ++ rest) =
      match parseOperand (operand.tokens ++ rest) with
      | some (operand, rest) => parsePredicateEnd operand rest
      | none => none := by
  cases operand with
  | path path =>
    simp only [Operand.tokens, PathSyntax.tokens, List.cons_append]
    rw [parsePredicate]
    simp
  | value placeholder =>
    simp only [Operand.tokens, List.cons_append]
    rw [parsePredicate]
    simp
  | size operand =>
    simp only [Operand.tokens, List.cons_append]
    rw [parsePredicate]
    simp

theorem parsePredicate_tokens (predicate : Predicate PathSyntax String) {rest : List Token}
    (ends : EndsPath rest) : parsePredicate (predicate.tokens ++ rest) = some (predicate, rest) := by
  cases predicate with
  | compare left comparison right =>
    simp only [Predicate.tokens, List.cons_append, List.append_assoc]
    rw [parsePredicate_operand, parseOperand_tokens left (by simp)]
    simp only [parsePredicateEnd, parseOperand_tokens right ends, Option.map_some]
  | between operand low high =>
    simp only [Predicate.tokens, List.cons_append, List.append_assoc]
    rw [parsePredicate_operand, parseOperand_tokens operand (by simp)]
    simp only [parsePredicateEnd]
    rw [parseOperand_tokens low (by simp)]
    simp only [parseOperand_tokens high ends, Option.map_some]
  | oneOf operand first others =>
    have bounded : others.length ≤ (otherTokens others ++ .closeParen :: rest).length := by
      have := length_otherTokens others
      simp only [List.length_append]
      omega
    simp only [Predicate.tokens, List.cons_append, List.append_assoc, List.nil_append]
    rw [parsePredicate_operand, parseOperand_tokens operand (by simp)]
    simp only [parsePredicateEnd]
    rw [parseOperand_tokens first (endsPath_otherTokens others (by simp))]
    simp only [parseOthers_tokens others bounded rest]
  | call function operand argument =>
    cases argument with
    | none =>
      simp only [Predicate.tokens, List.cons_append, List.append_assoc, List.nil_append]
      rw [parsePredicate, parseOperand_tokens operand (by simp)]
      rfl
    | some argument =>
      simp only [Predicate.tokens, List.cons_append, List.append_assoc, List.nil_append]
      rw [parsePredicate, parseOperand_tokens operand (by simp)]
      simp only [parseCallEnd]
      rw [parseOperand_tokens argument (by simp)]

/-- A predicate starts with neither `NOT` nor a parenthesis. -/
theorem parseNegation_predicate (predicate : Predicate PathSyntax String) (bound : Nat)
    {rest : List Token} (ends : EndsPath rest) :
    parseNegation (bound + 1) (predicate.tokens ++ rest) = some (.test predicate, rest) := by
  have starts : ∀ operand : Operand PathSyntax String, ∀ tail : List Token,
      (∀ more, operand.tokens ++ tail ≠ .not :: more) ∧
        (∀ more, operand.tokens ++ tail ≠ .openParen :: more) := by
    intro operand tail
    cases operand <;> simp [Operand.tokens, PathSyntax.tokens]
  have notNegation : ∀ more, predicate.tokens ++ rest ≠ .not :: more := by
    intro more
    cases predicate with
    | call function operand argument => cases argument <;> simp [Predicate.tokens]
    | compare left _ _ | between left _ _ | oneOf left _ _ =>
      simpa only [Predicate.tokens, List.append_assoc] using (starts left _).1 more
  have notParenthesis : ∀ more, predicate.tokens ++ rest ≠ .openParen :: more := by
    intro more
    cases predicate with
    | call function operand argument => cases argument <;> simp [Predicate.tokens]
    | compare left _ _ | between left _ _ | oneOf left _ _ =>
      simpa only [Predicate.tokens, List.append_assoc] using (starts left _).2 more
  rw [parseNegation, parsePredicate_tokens predicate ends]
  · rfl
  · exact notNegation
  · exact notParenthesis

/-- A bound that suffices to read a formula. -/
def Formula.depth {α : Type} : Formula α → Nat
  | .test _ => 3
  | .and left right => max left.depth right.depth + 4
  | .or left right => max left.depth right.depth + 4
  | .not formula => formula.depth + 4

theorem Predicate.tokens_length_pos (predicate : Predicate PathSyntax String) :
    0 < predicate.tokens.length := by
  cases predicate with
  | call function operand argument => cases argument <;> simp [Predicate.tokens]
  | compare _ _ _ | between _ _ _ | oneOf _ _ _ =>
    simp only [Predicate.tokens, List.length_append, List.length_cons]
    omega

theorem Formula.depth_le (formula : FormulaSyntax) : formula.depth ≤ 4 * formula.tokens.length := by
  induction formula with
  | test predicate =>
    have := predicate.tokens_length_pos
    simp only [Formula.depth, Formula.tokens]
    omega
  | and left right leftHypothesis rightHypothesis | or left right leftHypothesis rightHypothesis =>
    simp only [Formula.depth, Formula.tokens, List.length_cons, List.length_append, List.length_nil]
    omega
  | not formula inductionHypothesis =>
    simp only [Formula.depth, Formula.tokens, List.length_cons, List.length_append, List.length_nil]
    omega

/-- Tokens that end a condition: none, or a parenthesis that closes it. -/
def EndsFormula (rest : List Token) : Prop := ∀ token ∈ rest.head?, token = .closeParen

theorem EndsFormula.endsPath {rest : List Token} (ends : EndsFormula rest) : EndsPath rest := by
  intro token isHead
  rw [ends token isHead]
  simp

theorem EndsFormula.not_and {rest : List Token} (ends : EndsFormula rest) :
    ∀ token ∈ rest.head?, token ≠ .and := by
  intro token isHead
  simp [ends token isHead]

theorem EndsFormula.not_or {rest : List Token} (ends : EndsFormula rest) :
    ∀ token ∈ rest.head?, token ≠ .or := by
  intro token isHead
  simp [ends token isHead]

theorem parseConjuncts_done {bound : Nat} {formula : FormulaSyntax} {rest : List Token}
    (notAnd : ∀ token ∈ rest.head?, token ≠ .and) :
    parseConjuncts (bound + 1) formula rest = some (formula, rest) := by
  rw [parseConjuncts]
  rintro more rfl
  simp at notAnd

theorem parseDisjuncts_done {bound : Nat} {formula : FormulaSyntax} {rest : List Token}
    (notOr : ∀ token ∈ rest.head?, token ≠ .or) :
    parseDisjuncts (bound + 1) formula rest = some (formula, rest) := by
  rw [parseDisjuncts]
  rintro more rfl
  simp at notOr

/-- A formula is read back from its tokens, up to the end of the condition. -/
theorem parseDisjunction_tokens (formula : FormulaSyntax) (bound : Nat)
    (bounded : formula.depth ≤ bound) {rest : List Token} (ends : EndsFormula rest) :
    parseDisjunction bound (formula.tokens ++ rest) = some (formula, rest) := by
  -- each level of the grammar takes one step, and a formula in parentheses starts again at the top;
  -- a depth of four steps for each constructor is enough for both
  induction formula generalizing bound rest with
  | test predicate =>
    obtain ⟨bound, rfl⟩ : ∃ lower, bound = lower + 3 :=
      ⟨bound - 3, by simp only [Formula.depth] at bounded; omega⟩
    rw [Formula.tokens, parseDisjunction, parseConjunction, parseNegation_predicate _ _ ends.endsPath]
    simp only [parseConjuncts_done ends.not_and, parseDisjuncts_done ends.not_or]
  | and left right leftHypothesis rightHypothesis =>
    obtain ⟨bound, rfl⟩ : ∃ lower, bound = lower + 4 :=
      ⟨bound - 4, by simp only [Formula.depth] at bounded; omega⟩
    simp only [Formula.depth] at bounded
    simp only [Formula.tokens, List.cons_append, List.append_assoc, List.nil_append]
    rw [parseDisjunction, parseConjunction, parseNegation,
      leftHypothesis (bound + 1) (by omega) (by simp [EndsFormula])]
    simp only
    rw [parseConjuncts, parseNegation,
      rightHypothesis bound (by omega) (by simp [EndsFormula])]
    simp only [parseConjuncts_done ends.not_and, parseDisjuncts_done ends.not_or]
  | or left right leftHypothesis rightHypothesis =>
    obtain ⟨bound, rfl⟩ : ∃ lower, bound = lower + 4 :=
      ⟨bound - 4, by simp only [Formula.depth] at bounded; omega⟩
    simp only [Formula.depth] at bounded
    simp only [Formula.tokens, List.cons_append, List.append_assoc, List.nil_append]
    rw [parseDisjunction, parseConjunction, parseNegation,
      leftHypothesis (bound + 1) (by omega) (by simp [EndsFormula])]
    simp only
    rw [parseConjuncts_done (by simp)]
    simp only
    rw [parseDisjuncts, parseConjunction, parseNegation,
      rightHypothesis bound (by omega) (by simp [EndsFormula])]
    simp only [parseConjuncts_done ends.not_and, parseDisjuncts_done ends.not_or]
  | not formula inductionHypothesis =>
    obtain ⟨bound, rfl⟩ : ∃ lower, bound = lower + 4 :=
      ⟨bound - 4, by simp only [Formula.depth] at bounded; omega⟩
    simp only [Formula.depth] at bounded
    simp only [Formula.tokens, List.cons_append, List.append_assoc, List.nil_append]
    rw [parseDisjunction, parseConjunction, parseNegation, parseNegation,
      inductionHypothesis bound (by omega) (by simp [EndsFormula])]
    simp only [parseConjuncts_done ends.not_and, parseDisjuncts_done ends.not_or]

/-- Reading is the inverse of writing. -/
theorem parseFormula_tokens (formula : FormulaSyntax) : parseFormula formula.tokens = some formula := by
  have ends : EndsFormula [] := by simp [EndsFormula]
  have read := parseDisjunction_tokens formula _ formula.depth_le ends
  rw [List.append_nil] at read
  simp only [parseFormula, read]

end SingleTable.Grammar
