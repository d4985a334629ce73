import SingleTable.Proofs.Expression.Resolution

/-!
# The grammar of updates

How the service reads an update: up to four clauses, each a keyword and a list of changes.  A
`SET` assigns the value of a term, or the sum or difference of two; `REMOVE` lists paths; `ADD`
and `DELETE` list paths with values.  Reading is the inverse of writing (`parseUpdate_tokens`).
-/

namespace SingleTable.Grammar

/-! ## Syntax trees -/

/-- A value that an update computes from the item. -/
inductive Term (π ν : Type) where
  | path (path : π)
  | value (value : ν)
  /-- The value at a path, or another where it has none. -/
  | ifNotExists (path : π) (otherwise : Term π ν)
  | listAppend (first second : Term π ν)
  deriving DecidableEq, Repr

/-- The right side of an assignment. -/
inductive Assigned (π ν : Type) where
  | term (term : Term π ν)
  | plus (left right : Term π ν)
  | minus (left right : Term π ν)
  deriving DecidableEq, Repr

/-- One change of an item. -/
inductive Change (π ν : Type) where
  | set (path : π) (assigned : Assigned π ν)
  | add (path : π) (value : ν)
  | remove (path : π)
  | delete (path : π) (value : ν)
  deriving DecidableEq, Repr

/-- The clauses of an update. -/
inductive Clause where
  | set
  | add
  | remove
  | delete
  deriving DecidableEq, Repr

abbrev ChangeSyntax := Change PathSyntax String

def Change.path {π ν : Type} : Change π ν → π
  | .set path _ | .add path _ | .remove path | .delete path _ => path

def Change.clause {π ν : Type} : Change π ν → Clause
  | .set _ _ => .set
  | .add _ _ => .add
  | .remove _ => .remove
  | .delete _ _ => .delete

/-! ## Reading tokens -/

def parseTerm : Nat → List Token → Option (Term PathSyntax String × List Token)
  | 0, _ => none
  | _ + 1, .value placeholder :: rest => some (.value placeholder, rest)
  | bound + 1, .ifNotExists :: .openParen :: rest =>
    match parsePath rest with
    | some (path, .comma :: rest) =>
      match parseTerm bound rest with
      | some (otherwise, .closeParen :: rest) => some (.ifNotExists path otherwise, rest)
      | _ => none
    | _ => none
  | bound + 1, .listAppend :: .openParen :: rest =>
    match parseTerm bound rest with
    | some (first, .comma :: rest) =>
      match parseTerm bound rest with
      | some (second, .closeParen :: rest) => some (.listAppend first second, rest)
      | _ => none
    | _ => none
  | _ + 1, tokens => (parsePath tokens).map fun (path, rest) => (.path path, rest)

def parseAssigned (tokens : List Token) : Option (Assigned PathSyntax String × List Token) :=
  match parseTerm tokens.length tokens with
  | some (left, .plus :: rest) =>
    (parseTerm rest.length rest).map fun (right, rest) => (.plus left right, rest)
  | some (left, .minus :: rest) =>
    (parseTerm rest.length rest).map fun (right, rest) => (.minus left right, rest)
  | some (term, rest) => some (.term term, rest)
  | none => none

def parseChange (clause : Clause) (tokens : List Token) : Option (ChangeSyntax × List Token) :=
  match clause, parsePath tokens with
  | .set, some (path, .comparison .equal :: rest) =>
    (parseAssigned rest).map fun (assigned, rest) => (.set path assigned, rest)
  | .add, some (path, .value placeholder :: rest) => some (.add path placeholder, rest)
  | .remove, some (path, rest) => some (.remove path, rest)
  | .delete, some (path, .value placeholder :: rest) => some (.delete path placeholder, rest)
  | _, _ => none

def parseChanges (clause : Clause) : Nat → List Token → Option (List ChangeSyntax × List Token)
  | 0, _ => none
  | bound + 1, tokens =>
    match parseChange clause tokens with
    | some (change, .comma :: rest) =>
      (parseChanges clause bound rest).map fun (changes, rest) => (change :: changes, rest)
    | some (change, rest) => some ([change], rest)
    | none => none

def Clause.ofToken? : Token → Option Clause
  | .set => some .set
  | .add => some .add
  | .remove => some .remove
  | .delete => some .delete
  | _ => none

def parseClauses : Nat → List Token → Option (List (Clause × List ChangeSyntax))
  | _, [] => some []
  | 0, _ => none
  | bound + 1, token :: rest =>
    match Clause.ofToken? token with
    | none => none
    | some clause =>
      match parseChanges clause rest.length rest with
      | some (changes, rest) =>
        (parseClauses bound rest).map fun clauses => (clause, changes) :: clauses
      | none => none

/-- The changes of an update.  There must be one, and no clause may occur twice. -/
def parseUpdate (tokens : List Token) : Option (List ChangeSyntax) :=
  match parseClauses tokens.length tokens with
  | some clauses =>
    if clauses ≠ [] ∧ (clauses.map Prod.fst).Nodup then some (clauses.flatMap Prod.snd) else none
  | none => none

/-! ## Writing tokens -/

def Term.tokens : Term PathSyntax String → List Token
  | .path written => written.tokens
  | .value placeholder => [.value placeholder]
  | .ifNotExists written otherwise =>
    .ifNotExists :: .openParen :: (written.tokens ++ .comma :: (otherwise.tokens ++ [.closeParen]))
  | .listAppend first second =>
    .listAppend :: .openParen :: (first.tokens ++ .comma :: (second.tokens ++ [.closeParen]))

def Assigned.tokens : Assigned PathSyntax String → List Token
  | .term computed => computed.tokens
  | .plus left right => left.tokens ++ .plus :: right.tokens
  | .minus left right => left.tokens ++ .minus :: right.tokens

def Change.tokens : ChangeSyntax → List Token
  | .set path assigned => path.tokens ++ .comparison .equal :: assigned.tokens
  | .add path placeholder | .delete path placeholder => path.tokens ++ [.value placeholder]
  | .remove path => path.tokens

def Clause.token : Clause → Token
  | .set => .set
  | .add => .add
  | .remove => .remove
  | .delete => .delete

def laterTokens (changes : List ChangeSyntax) : List Token :=
  changes.flatMap fun change => .comma :: change.tokens

def clauseTokens (clause : Clause) : List ChangeSyntax → List Token
  | [] => []
  | first :: later => clause.token :: (first.tokens ++ laterTokens later)

/-! ## Reading what was written -/

/-- Tokens that continue neither a path nor a sum. -/
def EndsChange (rest : List Token) : Prop :=
  ∀ token ∈ rest.head?, token ≠ .dot ∧ token ≠ .openBracket ∧ token ≠ .plus ∧ token ≠ .minus

@[simp] theorem endsChange_nil : EndsChange [] := by simp [EndsChange]

@[simp] theorem endsChange_cons {token : Token} {rest : List Token} :
    EndsChange (token :: rest) ↔
      token ≠ .dot ∧ token ≠ .openBracket ∧ token ≠ .plus ∧ token ≠ .minus := by
  simp [EndsChange]

theorem EndsChange.endsPath {rest : List Token} (ends : EndsChange rest) : EndsPath rest :=
  fun token isHead => ⟨(ends token isHead).1, (ends token isHead).2.1⟩

/-- A bound that suffices to read a term. -/
def Term.depth {π ν : Type} : Term π ν → Nat
  | .path _ | .value _ => 1
  | .ifNotExists _ otherwise => otherwise.depth + 1
  | .listAppend first second => max first.depth second.depth + 1

theorem PathSyntax.tokens_length_pos (path : PathSyntax) : 0 < path.tokens.length := by
  simp [PathSyntax.tokens]

theorem Term.depth_le (term : Term PathSyntax String) : term.depth ≤ term.tokens.length := by
  induction term with
  | path path =>
    have := path.tokens_length_pos
    simp only [Term.depth, Term.tokens]
    omega
  | value placeholder => simp [Term.depth, Term.tokens]
  | ifNotExists path otherwise inductionHypothesis =>
    simp only [Term.depth, Term.tokens, List.length_cons, List.length_append, List.length_nil]
    omega
  | listAppend first second firstHypothesis secondHypothesis =>
    simp only [Term.depth, Term.tokens, List.length_cons, List.length_append, List.length_nil]
    omega

theorem parseTerm_tokens (term : Term PathSyntax String) (bound : Nat) (bounded : term.depth ≤ bound)
    {rest : List Token} (ends : EndsPath rest) :
    parseTerm bound (term.tokens ++ rest) = some (term, rest) := by
  -- the bound falls by one for each term around another; inside a term a comma or a parenthesis
  -- follows, which ends every path
  induction term generalizing bound rest with
  | path path =>
    obtain ⟨bound, rfl⟩ : ∃ lower, bound = lower + 1 :=
      ⟨bound - 1, by simp only [Term.depth] at bounded; omega⟩
    have read := parsePath_tokens path ends
    simp only [Term.tokens, PathSyntax.tokens, List.cons_append] at read ⊢
    rw [parseTerm, read]
    · rfl
    · simp
    · simp
    · simp
  | value placeholder =>
    obtain ⟨bound, rfl⟩ : ∃ lower, bound = lower + 1 :=
      ⟨bound - 1, by simp only [Term.depth] at bounded; omega⟩
    simp [Term.tokens, parseTerm]
  | ifNotExists path otherwise inductionHypothesis =>
    obtain ⟨bound, rfl⟩ : ∃ lower, bound = lower + 1 :=
      ⟨bound - 1, by simp only [Term.depth] at bounded; omega⟩
    simp only [Term.depth] at bounded
    simp only [Term.tokens, List.cons_append, List.append_assoc, List.nil_append]
    rw [parseTerm, parsePath_tokens path (by simp)]
    simp only
    rw [inductionHypothesis bound (by omega) (by simp)]
  | listAppend first second firstHypothesis secondHypothesis =>
    obtain ⟨bound, rfl⟩ : ∃ lower, bound = lower + 1 :=
      ⟨bound - 1, by simp only [Term.depth] at bounded; omega⟩
    simp only [Term.depth] at bounded
    simp only [Term.tokens, List.cons_append, List.append_assoc, List.nil_append]
    rw [parseTerm, firstHypothesis bound (by omega) (by simp)]
    simp only
    rw [secondHypothesis bound (by omega) (by simp)]

/-- A term is read from all tokens that are left. -/
theorem parseTerm_length (term : Term PathSyntax String) {rest : List Token}
    (ends : EndsPath rest) :
    parseTerm (term.tokens ++ rest).length (term.tokens ++ rest) = some (term, rest) := by
  have depth_le := term.depth_le
  refine parseTerm_tokens term _ ?_ ends
  rw [List.length_append]
  omega

theorem parseAssigned_tokens (assigned : Assigned PathSyntax String) {rest : List Token}
    (ends : EndsChange rest) : parseAssigned (assigned.tokens ++ rest) = some (assigned, rest) := by
  unfold parseAssigned
  cases assigned with
  | term term =>
    simp only [Assigned.tokens]
    rw [parseTerm_length term ends.endsPath]
    -- a sign behind the term would make it a sum or a difference, but no change ends before one
    split
    · next h =>
      obtain ⟨-, rfl⟩ : term = _ ∧ rest = _ := by simpa using h
      simp at ends
    · next h =>
      obtain ⟨-, rfl⟩ : term = _ ∧ rest = _ := by simpa using h
      simp at ends
    · next h =>
      obtain ⟨rfl, rfl⟩ : term = _ ∧ rest = _ := by simpa using h
      rfl
    · next h => simp at h
  | plus left right =>
    simp only [Assigned.tokens, List.append_assoc, List.cons_append]
    rw [parseTerm_length left (by simp)]
    simp only [parseTerm_length right ends.endsPath, Option.map_some]
  | minus left right =>
    simp only [Assigned.tokens, List.append_assoc, List.cons_append]
    rw [parseTerm_length left (by simp)]
    simp only [parseTerm_length right ends.endsPath, Option.map_some]

theorem parseChange_tokens (change : ChangeSyntax) {rest : List Token} (ends : EndsChange rest) :
    parseChange change.clause (change.tokens ++ rest) = some (change, rest) := by
  cases change with
  | set path assigned =>
    simp only [Change.tokens, Change.clause, List.append_assoc, List.cons_append, parseChange]
    rw [parsePath_tokens path (by simp)]
    simp only [parseAssigned_tokens assigned ends, Option.map_some]
  | add path placeholder | delete path placeholder =>
    simp only [Change.tokens, Change.clause, List.append_assoc, List.cons_append, List.nil_append,
      parseChange]
    rw [parsePath_tokens path (by simp)]
  | remove path =>
    simp only [Change.tokens, Change.clause, parseChange]
    rw [parsePath_tokens path ends.endsPath]

/-- Changes of one clause are read up to tokens that start no further change. -/
theorem parseChanges_tokens (clause : Clause) (first : ChangeSyntax) (later : List ChangeSyntax)
    (sameClause : ∀ change ∈ first :: later, change.clause = clause) (bound : Nat)
    (bounded : later.length < bound) {rest : List Token} (ends : EndsChange rest)
    (notComma : ∀ token ∈ rest.head?, token ≠ .comma) :
    parseChanges clause bound (first.tokens ++ (laterTokens later ++ rest)) =
      some (first :: later, rest) := by
  induction later generalizing first bound with
  | nil =>
    obtain ⟨bound, rfl⟩ : ∃ lower, bound = lower + 1 := ⟨bound - 1, by omega⟩
    have read := parseChange_tokens first ends
    rw [sameClause first (by simp)] at read
    simp only [laterTokens, List.flatMap_nil, List.nil_append, parseChanges]
    rw [read]
    split
    · next h =>
      obtain ⟨-, rfl⟩ : first = _ ∧ rest = _ := by simpa using h
      simp at notComma
    · next h =>
      obtain ⟨rfl, rfl⟩ : first = _ ∧ rest = _ := by simpa using h
      rfl
    · next h => simp at h
  | cons second later inductionHypothesis =>
    obtain ⟨bound, rfl⟩ : ∃ lower, bound = lower + 1 := ⟨bound - 1, by omega⟩
    have shape : laterTokens (second :: later) ++ rest =
        .comma :: (second.tokens ++ (laterTokens later ++ rest)) := by
      simp [laterTokens]
    have endsFirst : EndsChange (Token.comma :: (second.tokens ++ (laterTokens later ++ rest))) := by
      simp
    have read := parseChange_tokens first endsFirst
    rw [sameClause first (by simp)] at read
    have readLater := inductionHypothesis second
      (fun change isMember => sameClause change (by simp [List.mem_cons.1 isMember])) bound
      (by simp only [List.length_cons] at bounded; omega)
    rw [shape, parseChanges, read]
    simp only [readLater, Option.map_some]

theorem Clause.ofToken?_token (clause : Clause) : Clause.ofToken? clause.token = some clause := by
  cases clause <;> rfl

structure ClauseSyntax where
  clause : Clause
  first : ChangeSyntax
  later : List ChangeSyntax
  sameClause : ∀ change ∈ first :: later, change.clause = clause

def clausesTokens (clauses : List ClauseSyntax) : List Token :=
  clauses.flatMap fun written => clauseTokens written.clause (written.first :: written.later)

theorem length_laterTokens (changes : List ChangeSyntax) :
    changes.length ≤ (laterTokens changes).length := by
  induction changes with
  | nil => simp
  | cons change changes inductionHypothesis =>
    simp only [laterTokens, List.flatMap_cons, List.cons_append, List.length_cons,
      List.length_append] at inductionHypothesis ⊢
    omega

theorem endsChange_clausesTokens (clauses : List ClauseSyntax) :
    EndsChange (clausesTokens clauses) ∧ ∀ token ∈ (clausesTokens clauses).head?, token ≠ .comma := by
  cases clauses with
  | nil => simp [clausesTokens]
  | cons written clauses =>
    rcases written with ⟨clause, first, later, sameClause⟩
    cases clause <;> simp [clausesTokens, clauseTokens, Clause.token]

theorem parseClauses_tokens (clauses : List ClauseSyntax) (bound : Nat)
    (bounded : clauses.length ≤ bound) :
    parseClauses bound (clausesTokens clauses) =
      some (clauses.map fun written => (written.clause, written.first :: written.later)) := by
  induction clauses generalizing bound with
  | nil => cases bound <;> rfl
  | cons written clauses inductionHypothesis =>
    obtain ⟨bound, rfl⟩ : ∃ lower, bound = lower + 1 :=
      ⟨bound - 1, by simp only [List.length_cons] at bounded; omega⟩
    have shape : clausesTokens (written :: clauses) = written.clause.token ::
        (written.first.tokens ++ (laterTokens written.later ++ clausesTokens clauses)) := by
      simp [clausesTokens, clauseTokens]
    obtain ⟨ends, notComma⟩ := endsChange_clausesTokens clauses
    -- the bound for the changes is the number of tokens, and each change has at least one
    have enough : written.later.length < (written.first.tokens ++
        (laterTokens written.later ++ clausesTokens clauses)).length := by
      have firstPos : 0 < written.first.tokens.length := by
        cases written.first <;> simp [Change.tokens, PathSyntax.tokens]
      have laterLe := length_laterTokens written.later
      simp only [List.length_append]
      omega
    have read := parseChanges_tokens written.clause written.first written.later written.sameClause
      _ enough ends notComma
    rw [shape, parseClauses, Clause.ofToken?_token]
    simp only [read, List.map_cons]
    rw [inductionHypothesis bound (by simp only [List.length_cons] at bounded; omega)]
    rfl

theorem length_le_clausesTokens (clauses : List ClauseSyntax) :
    clauses.length ≤ (clausesTokens clauses).length := by
  induction clauses with
  | nil => simp
  | cons written clauses inductionHypothesis =>
    simp only [clausesTokens, clauseTokens, List.flatMap_cons, List.cons_append,
      List.length_cons, List.length_append] at inductionHypothesis ⊢
    omega

/-- Reading is the inverse of writing. -/
theorem parseUpdate_tokens (clauses : List ClauseSyntax) (nonempty : clauses ≠ [])
    (nodup : (clauses.map (·.clause)).Nodup) :
    parseUpdate (clausesTokens clauses) =
      some (clauses.flatMap fun written => written.first :: written.later) := by
  unfold parseUpdate
  simp only [parseClauses_tokens clauses _ (length_le_clausesTokens clauses)]
  rw [if_pos]
  · simp [List.flatMap_map]
  · exact ⟨by simpa using nonempty, by simpa [List.map_map, Function.comp_def] using nodup⟩

end SingleTable.Grammar
