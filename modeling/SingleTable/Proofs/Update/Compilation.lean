import SingleTable.Proofs.Update.Reading

/-!
# The text of an update body

A body compiles to clauses in a fixed order.  Read clause by clause, with what the placeholders
stand for put in their place, the text has the changes of the actions of each clause, in the
order of the body, and nothing else (`UpdateBody.readClauses_of_compile`).
-/

namespace SingleTable

open Grammar

/-! ## Meaning -/

def UpdateAction.clause : UpdateAction → Clause
  | .set _ | .increment _ | .decrement _ | .setIfAbsent _ | .listAppend _ => .set
  | .add _ => .add
  | .remove | .removeAt _ => .remove
  | .delete _ => .delete

theorem UpdateAction.clause_of_mem_changes {target : List PathSegment} {action : UpdateAction}
    {change : ItemChange} (isMember : change ∈ action.changes target) :
    change.clause = action.clause := by
  cases action with
  | removeAt indexes =>
    obtain ⟨index, -, rfl⟩ := List.mem_map.1 isMember
    rfl
  | set _ | increment _ | decrement _ | setIfAbsent _ | listAppend _ | add _ | remove | delete _ =>
    obtain rfl := List.mem_singleton.1 isMember
    rfl

/-- The changes that belong to a clause are those of the actions that belong to it. -/
theorem filter_actionChanges (actions : List (String × UpdateAction)) (clause : Clause) :
    (actionChanges actions).filter (·.clause = clause) =
      actionChanges (actions.filter (·.2.clause = clause)) := by
  induction actions with
  | nil => rfl
  | cons entry actions inductionHypothesis =>
    obtain ⟨path, action⟩ := entry
    have split_eq : actionChanges ((path, action) :: actions) =
        action.changes (Path.segments path) ++ actionChanges actions := by simp [actionChanges]
    rw [split_eq, List.filter_append, inductionHypothesis]
    by_cases same : action.clause = clause
    · have all : (action.changes (Path.segments path)).filter (·.clause = clause) =
          action.changes (Path.segments path) := by
        rw [List.filter_eq_self]
        intro change isMember
        simp [UpdateAction.clause_of_mem_changes isMember, same]
      rw [all, List.filter_cons_of_pos (by simpa using same)]
      simp [actionChanges]
    · have noChange : (action.changes (Path.segments path)).filter (·.clause = clause) = [] := by
        rw [List.filter_eq_nil_iff]
        intro change isMember
        simp [UpdateAction.clause_of_mem_changes isMember, same]
      rw [noChange, List.filter_cons_of_neg (by simpa using same), List.nil_append]

/-- What a body says: for each clause in turn the changes that its actions make, in the order of
the actions.  A clause that no action changes anything in is left out. -/
def UpdateBody.meaning (body : UpdateBody) : List (Clause × List ItemChange) :=
  (Clause.all.map fun clause =>
    (clause, actionChanges (body.actions.filter (·.2.clause = clause)))).filter (·.2 ≠ [])

theorem UpdateBody.meaning_eq_groups (body : UpdateBody) :
    body.meaning = groups Clause.all (actionChanges body.actions) := by
  simp only [meaning, groups, filter_actionChanges]

/-! ## Reading clauses -/

namespace Grammar

/-- A clause with the placeholders of its changes replaced by what they stand for. -/
def resolveClause (bindings : Bindings) (clause : Clause × List ChangeSyntax) :
    Option (Clause × List ItemChange) :=
  (clause.2.mapM (Change.resolve bindings)).map fun changes => (clause.1, changes)

/-- The clauses of a text in turn, given what its placeholders stand for. -/
def readClauses (text : String) (bindings : Bindings) :
    Option (List (Clause × List ItemChange)) := do
  let tokens ← tokens? text
  let clauses ← parseClauses tokens.length tokens
  clauses.mapM (resolveClause bindings)

theorem mapM_resolveClause {bindings : Bindings} {written : List ClauseSyntax}
    {clauses : List (Clause × List ItemChange)}
    (standFor : List.Forall₂ (StandsFor bindings) written clauses) :
    (written.map fun w => (w.clause, w.first :: w.later)).mapM (resolveClause bindings) =
      some clauses := by
  induction standFor with
  | nil => rfl
  | cons standsFor _ inductionHypothesis =>
    obtain ⟨clause_eq, resolved⟩ := standsFor
    simp [resolveClause, resolved, clause_eq, inductionHypothesis]

end Grammar

/-! ## Reading what was compiled -/

namespace UpdateBody

variable {body : UpdateBody} {clauses : UpdateClauses} {compiled : CompiledExpression}

/-- Reading the text that a body compiles to, clause by clause, gives back what the body says:
every action with its own path and operand, in its clause, once and in order. -/
theorem readClauses_of_compile (plain : ∀ entry ∈ body.actions, Path.IsPlain entry.1)
    (isParsed : body.clauses = .ok clauses) (isBuilt : clauses.compile = .ok compiled) :
    readClauses compiled.text compiled.bindings = some body.meaning := by
  obtain ⟨written, -, -, lexes, standFor⟩ :=
    UpdateClauses.exists_syntax_of_compile (clauses_expresses isParsed plain) isBuilt
  have lexed : tokens? compiled.text = some (clausesTokens written) := lexes
  have parsed := parseClauses_tokens written _ (length_le_clausesTokens written)
  rw [body.meaning_eq_groups]
  simp only [readClauses, lexed, parsed, Option.bind_eq_bind, Option.bind_some,
    mapM_resolveClause standFor]

def mixed : UpdateBody where
  actions := [("tags[0].rank", .increment (.string "a")), ("old", .removeAt [2, 0]),
    ("rank", .set (.string "b")), ("tags", .add (.string "c")), ("log", .listAppend (.string "d")),
    ("tags_0", .remove), ("log_rank", .setIfAbsent (.string "e")), ("seen", .delete (.string "f")),
    ("points", .decrement (.string "g"))]

theorem readClauses_mixed : ∃ clauses compiled, mixed.clauses = .ok clauses ∧
    clauses.compile = .ok compiled ∧
    compiled.text = "SET #UE_tags[0].#UE_tags_rank = #UE_tags[0].#UE_tags_rank + :UE_tags_0_rank, " ++
      "#UE_rank = :UE_rank, #UE_log = list_append(#UE_log, :UE_log), " ++
      "#UE_log_rank = if_not_exists(#UE_log_rank, :UE_log_rank), #UE_points = #UE_points - :UE_points " ++
      "ADD #UE_tags :UE_tags REMOVE #UE_old[2], #UE_old[0], #UE_tags_0 DELETE #UE_seen :UE_seen" ∧
    readClauses compiled.text compiled.bindings = some mixed.meaning := by
  have plain : ∀ entry ∈ mixed.actions, Path.IsPlain entry.1 := by
    intro entry isMember
    exact Path.isPlain_of_spelled [("tags", ["0"]), ("rank", []), ("old", []), ("rank", []),
      ("tags", []), ("log", []), ("tags_0", []), ("log_rank", []), ("seen", []), ("points", [])]
      (by decide) (by decide) entry.1 (List.mem_map_of_mem (f := Prod.fst) isMember)
  have text_eq : (mixed.clauses >>= UpdateClauses.compile).map (·.text) = .ok
      ("SET #UE_tags[0].#UE_tags_rank = #UE_tags[0].#UE_tags_rank + :UE_tags_0_rank, " ++
        "#UE_rank = :UE_rank, #UE_log = list_append(#UE_log, :UE_log), " ++
        "#UE_log_rank = if_not_exists(#UE_log_rank, :UE_log_rank), #UE_points = #UE_points - :UE_points " ++
        "ADD #UE_tags :UE_tags REMOVE #UE_old[2], #UE_old[0], #UE_tags_0 DELETE #UE_seen :UE_seen") := by
    decide +kernel
  obtain ⟨compiled, isCompiled, text_eq⟩ := map_eq_ok.1 text_eq
  obtain ⟨clauses, isParsed, isBuilt⟩ := bind_eq_ok.1 isCompiled
  exact ⟨clauses, compiled, isParsed, isBuilt, text_eq, readClauses_of_compile plain isParsed isBuilt⟩

end UpdateBody

end SingleTable
