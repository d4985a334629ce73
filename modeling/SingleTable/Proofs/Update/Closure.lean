import SingleTable.Proofs.Expression.Mention
import SingleTable.Proofs.Update.Reading

/-!
# What updates bind and mention

An action binds the names of its path before it is known which items it writes.  Every item of
an action mentions the whole path and, if the action uses a value, its placeholder, so what an
action binds is mentioned as soon as it writes an item (`Updating.mentions_items`).  The one
action that can write none removes list elements and lists no index: its names are bound
and stay idle, unless another action mentions them (`UpdateClauses.accounts_of_compile`).
-/

namespace SingleTable

open Grammar

def Grammar.mentionedIn (text : String) : List Placeholder := (placeholders? text).getD []

theorem Grammar.Mentions.mentionedIn_eq {text : String} {mentioned : List Placeholder}
    (mentions : Mentions text mentioned) : mentionedIn text = mentioned := by
  have found : placeholders? text = some mentioned := mentions
  simp [mentionedIn, found]

/-! ## Items -/

def UpdateAction.isIdle : UpdateAction → Bool
  | removeAt indexes => indexes.isEmpty
  | _ => false

def idlePlaceholders (actions : List (String × UpdateAction)) : List Placeholder :=
  (actions.filter (·.2.isIdle)).flatMap fun entry => ExpressionKind.update.placeholders entry.1

theorem mem_idlePlaceholders {actions : List (String × UpdateAction)} {placeholder : Placeholder} :
    placeholder ∈ idlePlaceholders actions ↔ ∃ entry ∈ actions, entry.2.isIdle = true ∧
      placeholder ∈ ExpressionKind.update.placeholders entry.1 := by
  simp only [idlePlaceholders, List.mem_flatMap, List.mem_filter, and_assoc]

def UpdateClauses.allItems (clauses : UpdateClauses) : List String :=
  Clause.all.flatMap clauses.itemsOf

theorem UpdateClauses.mem_allItems_append {clauses other : UpdateClauses} {item : String} :
    item ∈ (clauses.append other).allItems ↔ item ∈ clauses.allItems ∨ item ∈ other.allItems := by
  simp only [allItems, Clause.all, append, itemsOf, List.flatMap_cons, List.flatMap_nil,
    List.append_nil, List.mem_append]
  tauto

theorem UpdateClauses.mem_mentioned_append {clauses other : UpdateClauses}
    {placeholder : Placeholder} :
    placeholder ∈ (clauses.append other).allItems.flatMap mentionedIn ↔
      placeholder ∈ clauses.allItems.flatMap mentionedIn ∨
        placeholder ∈ other.allItems.flatMap mentionedIn := by
  simp only [List.mem_flatMap, mem_allItems_append, or_and_right, exists_or]

namespace Updating

section Items

variable {reference placeholder : String} {inPath : List Placeholder}
  (mentionsPath : Mentions reference inPath)
include mentionsPath

theorem mentions_removeAt (index : Nat) :
    Mentions (reference ++ "[" ++ index.repr ++ "]") inPath := by
  have allDigits : ∀ digits ∈ [index.repr], IsDigits digits := by simp [isDigits_repr]
  have mentionsIndex : Mentions (indexText [index.repr]) [] := (lexes_indexText allDigits).mentions
  have mentionsAll := mentionsPath.followed mentionsIndex (opens_indexText (by simp))
  simpa [indexText, String.append_assoc] using mentionsAll

variable (mentionsValue : Mentions placeholder [.value placeholder])
include mentionsValue

theorem mentions_beside {mark : String} (mentionsMark : Mentions mark []) (opens : Opens mark)
    (closes : Closes mark) :
    Mentions (reference ++ mark ++ placeholder) (inPath ++ [.value placeholder]) :=
  mentionsPath.joined mentionsMark mentionsValue opens closes

/-- The path, once more the path, and the value. -/
theorem mentions_twice {mark middle : String} (mentionsMark : Mentions mark []) (opens : Opens mark)
    (closes : Closes mark) (mentionsMiddle : Mentions middle []) (opensMiddle : Opens middle)
    (closesMiddle : Closes middle) :
    Mentions (reference ++ mark ++ (reference ++ middle ++ placeholder))
      (inPath ++ (inPath ++ [.value placeholder])) :=
  mentionsPath.joined mentionsMark
    (mentions_beside mentionsPath mentionsValue mentionsMiddle opensMiddle closesMiddle) opens closes

theorem mentions_arithmetic {mark : String} (mentionsMark : Mentions mark []) (opens : Opens mark)
    (closes : Closes mark) :
    Mentions (reference ++ " = " ++ reference ++ mark ++ placeholder)
      (inPath ++ (inPath ++ [.value placeholder])) := by
  have mentionsEqual : Mentions " = " [] := by decide
  have mentionsAll := mentions_twice mentionsPath mentionsValue mentionsEqual
    ⟨' ', "= ".toList, rfl, rfl⟩ ⟨' ', " =".toList, rfl, rfl⟩ mentionsMark opens closes
  simpa only [String.append_assoc] using mentionsAll

theorem mentions_call {opening : String} (mentionsOpening : Mentions opening []) (opens : Opens opening)
    (closes : Closes opening) :
    Mentions (reference ++ opening ++ reference ++ ", " ++ placeholder ++ ")")
      (inPath ++ (inPath ++ [.value placeholder])) := by
  have mentionsComma : Mentions ", " [] := by decide
  have mentionsClose : Mentions ")" [] := by decide
  have mentionsAll := (mentions_twice mentionsPath mentionsValue mentionsOpening opens closes
    mentionsComma ⟨',', [' '], rfl, rfl⟩ ⟨' ', [','], rfl, rfl⟩).followed mentionsClose
    ⟨')', [], rfl, rfl⟩
  simpa [String.append_assoc] using mentionsAll

end Items

/-- Every item of an action mentions its path and the value it uses, and nothing else. -/
theorem mentions_items {reference placeholder : String} {action : UpdateAction}
    {inPath : List Placeholder} (mentionsPath : Mentions reference inPath)
    (mentionsValue : ∀ value ∈ operand? action, Mentions placeholder [.value placeholder])
    {item : String} (isItem : item ∈ (items reference placeholder action).allItems) :
    ∃ mentioned, Mentions item mentioned ∧ ∀ other, other ∈ mentioned ↔
      other ∈ inPath ++ (operand? action).toList.map fun _ => .value placeholder := by
  cases action with
  | set value =>
    obtain rfl : item = reference ++ " = " ++ placeholder := List.mem_singleton.1 isItem
    have mentionsEqual : Mentions " = " [] := by decide
    exact ⟨_, mentions_beside mentionsPath (mentionsValue value rfl) mentionsEqual
      ⟨' ', "= ".toList, rfl, rfl⟩ ⟨' ', " =".toList, rfl, rfl⟩, fun _ => .rfl⟩
  | increment value =>
    obtain rfl : item = reference ++ " = " ++ reference ++ " + " ++ placeholder :=
      List.mem_singleton.1 isItem
    have mentionsPlus : Mentions " + " [] := by decide
    exact ⟨_, mentions_arithmetic mentionsPath (mentionsValue value rfl) mentionsPlus
      ⟨' ', "+ ".toList, rfl, rfl⟩ ⟨' ', " +".toList, rfl, rfl⟩, by simp [operand?]⟩
  | decrement value =>
    obtain rfl : item = reference ++ " = " ++ reference ++ " - " ++ placeholder :=
      List.mem_singleton.1 isItem
    have mentionsMinus : Mentions " - " [] := by decide
    exact ⟨_, mentions_arithmetic mentionsPath (mentionsValue value rfl) mentionsMinus
      ⟨' ', "- ".toList, rfl, rfl⟩ ⟨' ', " -".toList, rfl, rfl⟩, by simp [operand?]⟩
  | setIfAbsent value =>
    obtain rfl : item = reference ++ " = if_not_exists(" ++ reference ++ ", " ++ placeholder ++ ")" :=
      List.mem_singleton.1 isItem
    have mentionsName : Mentions " = if_not_exists(" [] := by decide
    exact ⟨_, mentions_call mentionsPath (mentionsValue value rfl) mentionsName
      ⟨' ', "= if_not_exists(".toList, rfl, rfl⟩ ⟨'(', " = if_not_exists".toList, rfl, rfl⟩,
      by simp [operand?]⟩
  | listAppend value =>
    obtain rfl : item = reference ++ " = list_append(" ++ reference ++ ", " ++ placeholder ++ ")" :=
      List.mem_singleton.1 isItem
    have mentionsName : Mentions " = list_append(" [] := by decide
    exact ⟨_, mentions_call mentionsPath (mentionsValue value rfl) mentionsName
      ⟨' ', "= list_append(".toList, rfl, rfl⟩ ⟨'(', " = list_append".toList, rfl, rfl⟩,
      by simp [operand?]⟩
  | add value | delete value =>
    obtain rfl : item = reference ++ " " ++ placeholder := List.mem_singleton.1 isItem
    have mentionsBlank : Mentions " " [] := by decide
    exact ⟨_, mentions_beside mentionsPath (mentionsValue value rfl) mentionsBlank ⟨' ', [], rfl, rfl⟩
      ⟨' ', [], rfl, rfl⟩, fun _ => .rfl⟩
  | remove =>
    obtain rfl : item = reference := List.mem_singleton.1 isItem
    exact ⟨_, mentionsPath, by simp [operand?]⟩
  | removeAt indexes =>
    obtain ⟨index, -, rfl⟩ : ∃ index ∈ indexes, reference ++ "[" ++ index.repr ++ "]" = item := by
      simpa [items, UpdateClauses.allItems, Clause.all, UpdateClauses.itemsOf] using isItem
    exact ⟨_, mentions_removeAt mentionsPath index, by simp [operand?]⟩

theorem items_eq_nil_iff {reference placeholder : String} {action : UpdateAction} :
    (items reference placeholder action).allItems = [] ↔ action.isIdle = true := by
  cases action <;>
    simp [items, UpdateClauses.allItems, Clause.all, UpdateClauses.itemsOf, UpdateAction.isIdle]

/-- What an action binds is mentioned by its items, or is idle if there are none. -/
theorem mem_items_or_idle {path placeholder : String} (plain : Path.IsPlain path)
    {action : UpdateAction}
    (mentionsValue : ∀ value ∈ operand? action, Mentions placeholder [.value placeholder])
    (other : Placeholder) :
    other ∈ ExpressionKind.update.placeholders path ++
        (operand? action).toList.map (fun _ => .value placeholder) ↔
      other ∈ (items (ExpressionKind.update.referenceText path) placeholder action).allItems.flatMap
          mentionedIn ∨
        other ∈ idlePlaceholders [(path, action)] := by
  have mentionsPath : Mentions (ExpressionKind.update.referenceText path) _ :=
    ExpressionKind.mentions_referenceText plain
  cases isIdle : action.isIdle with
  | true =>
    have noItems : (items (ExpressionKind.update.referenceText path) placeholder action).allItems = [] :=
      items_eq_nil_iff.2 isIdle
    have noOperand : operand? action = none := by
      cases action <;> first | rfl | simp [UpdateAction.isIdle] at isIdle
    simp [noItems, noOperand, idlePlaceholders, isIdle]
  | false =>
    have someItem : (items (ExpressionKind.update.referenceText path) placeholder action).allItems ≠ [] :=
      fun noItems => by simp [items_eq_nil_iff.1 noItems] at isIdle
    -- one item is enough, for all of them mention the same
    have each : ∀ item ∈ (items (ExpressionKind.update.referenceText path) placeholder action).allItems,
        (other ∈ mentionedIn item ↔ other ∈ ExpressionKind.update.placeholders path ++
          (operand? action).toList.map fun _ => .value placeholder) := by
      intro item isItem
      obtain ⟨mentioned, mentions, same⟩ := mentions_items mentionsPath mentionsValue isItem
      rw [mentions.mentionedIn_eq, same]
    obtain ⟨item, isItem⟩ := List.exists_mem_of_ne_nil _ someItem
    have noIdle : idlePlaceholders [(path, action)] = [] := by simp [idlePlaceholders, isIdle]
    rw [noIdle, List.mem_flatMap]
    constructor
    · intro isMember
      exact .inl ⟨item, isItem, (each item isItem).2 isMember⟩
    · rintro (⟨item, isItem, isMember⟩ | isMember)
      · exact (each item isItem).1 isMember
      · cases isMember

end Updating

/-! ## Clauses -/

/-- The items can be read, and what is bound is what they mention and some placeholders that they
do not need. -/
structure UpdateClauses.Accounts (clauses : UpdateClauses) (idle : List Placeholder) : Prop where
  mentions : ∀ item ∈ clauses.allItems, Mentions item (mentionedIn item)
  adds : Bindings.Adds {} clauses.bindings (clauses.allItems.flatMap mentionedIn ++ idle)

namespace Updating

theorem accounts_blank : UpdateClauses.Accounts {} [] :=
  ⟨by simp [UpdateClauses.allItems, Clause.all, UpdateClauses.itemsOf], .refl _⟩

theorem accounts_apply {path : String} {action : UpdateAction} (plain : Path.IsPlain path)
    {before after : UpdateClauses} {idle : List Placeholder} (accounts : before.Accounts idle)
    (run : Succeeds (apply path action) before () after) :
    after.Accounts (idle ++ idlePlaceholders [(path, action)]) := by
  obtain ⟨placeholder, middle, bindings, bound, boundValue, unchanged, rfl⟩ := exists_items_of_apply run
  have addsPath := ExpressionKind.adds_bindPath bound
  have addsValue : middle.Adds bindings ((operand? action).toList.map fun _ => .value placeholder) := by
    cases operand_eq : operand? action with
    | none => exact unchanged operand_eq ▸ .refl _
    | some value => exact ExpressionKind.adds_bindValue (boundValue value operand_eq)
  have mentionsValue : ∀ value ∈ operand? action, Mentions placeholder [.value placeholder] := by
    intro value isOperand
    obtain ⟨-, rfl, -⟩ := ExpressionKind.succeeds_bindValue (boundValue value isOperand)
    exact ExpressionKind.mentions_valuePlaceholder plain (by decide)
  constructor
  · intro item isItem
    rcases UpdateClauses.mem_allItems_append.1 isItem with isOld | isNew
    · exact accounts.mentions item isOld
    · obtain ⟨mentioned, mentions, -⟩ := mentions_items
        (ExpressionKind.mentions_referenceText plain) mentionsValue isNew
      exact mentions.mentionedIn_eq ▸ mentions
  · refine ((accounts.adds.trans addsPath).trans addsValue).congr fun other => ?_
    have new := mem_items_or_idle plain mentionsValue other
    rw [List.append_assoc, List.mem_append, new, List.mem_append, List.mem_append,
      UpdateClauses.mem_mentioned_append, List.mem_append]
    exact or_or_or_comm

theorem accounts_applyAll {actions : List (String × UpdateAction)}
    (plain : ∀ action ∈ actions, Path.IsPlain action.1) {before after : UpdateClauses}
    {idle : List Placeholder} (accounts : before.Accounts idle)
    (run : Succeeds (applyAll actions) before () after) :
    after.Accounts (idle ++ idlePlaceholders actions) := by
  induction actions generalizing before idle with
  | nil =>
    obtain ⟨-, rfl⟩ := succeeds_pure.1 run
    simpa [idlePlaceholders] using accounts
  | cons action actions inductionHypothesis =>
    obtain ⟨⟨⟩, _, runFirst, runOthers⟩ := succeeds_bind.1 run
    have accountsFirst := accounts_apply (plain action (by simp)) accounts runFirst
    have accountsAll := inductionHypothesis (fun other isMember => plain other (by simp [isMember]))
      accountsFirst runOthers
    have idle_eq : idlePlaceholders (action :: actions) =
        idlePlaceholders [action] ++ idlePlaceholders actions := by
      rw [idlePlaceholders, ← List.singleton_append, List.filter_append, List.flatMap_append]
      rfl
    rwa [idle_eq, ← List.append_assoc]

end Updating

theorem UpdateBody.clauses_accounts {body : UpdateBody} {clauses : UpdateClauses}
    (areClauses : body.clauses = .ok clauses)
    (plain : ∀ entry ∈ body.actions, Path.IsPlain entry.1) :
    clauses.Accounts (idlePlaceholders body.actions) := by
  unfold UpdateBody.clauses Updating.build at areClauses
  split at areClauses
  · cases areClauses
  · split at areClauses
    · next after run =>
      obtain rfl := Except.ok.inj areClauses
      have run : Succeeds (Updating.applyAll body.actions) {} () after := run
      simpa using Updating.accounts_applyAll plain Updating.accounts_blank run
    · cases areClauses

/-! ## The text of clauses -/

namespace UpdateClauses

variable {clauses : UpdateClauses} {idle : List Placeholder}

/-- A clause mentions what its items mention; without items it is not written. -/
theorem mentions_clauseText (clause : Clause) {items : List String}
    (mentions : ∀ item ∈ items, Mentions item (mentionedIn item)) :
    (∀ text ∈ clauseText clause.keyword items, Mentions text (mentionedIn text)) ∧
      (clauseText clause.keyword items).flatMap mentionedIn = items.flatMap mentionedIn := by
  unfold clauseText
  split
  · next noItems =>
    obtain rfl : items = [] := List.isEmpty_iff.1 noItems
    simp
  · have mentionsComma : Mentions ", " [] := by decide
    have mentionsKeyword : Mentions (clause.keyword ++ " ") [] := by cases clause <;> decide
    have mentionsItems := mentionsComma.intercalate ⟨',', [' '], rfl, rfl⟩ ⟨' ', [','], rfl, rfl⟩
      id mentionedIn mentions
    rw [List.map_id] at mentionsItems
    have mentionsClause := mentionsKeyword.closed mentionsItems
      (.prepend ⟨' ', [], rfl, rfl⟩ clause.keyword)
    have mentioned_eq := mentionsClause.mentionedIn_eq
    refine ⟨?_, by simpa using mentioned_eq⟩
    intro text isText
    obtain rfl := List.mem_singleton.1 isText
    rwa [mentioned_eq]

theorem mentions_text (mentions : ∀ item ∈ clauses.allItems, Mentions item (mentionedIn item)) :
    Mentions clauses.text (clauses.allItems.flatMap mentionedIn) := by
  have each := fun clause isClause => mentions_clauseText clause fun item isItem =>
    mentions item (List.mem_flatMap.2 ⟨clause, isClause, isItem⟩)
  have mentionsEach : ∀ text ∈ Clause.all.flatMap fun clause =>
      clauseText clause.keyword (clauses.itemsOf clause), Mentions text (mentionedIn text) := by
    intro text isText
    obtain ⟨clause, isClause, isText⟩ := List.mem_flatMap.1 isText
    exact (each clause isClause).1 text isText
  have mentionsBlank : Mentions " " [] := by decide
  have mentionsAll := mentionsBlank.intercalate ⟨' ', [], rfl, rfl⟩ ⟨' ', [], rfl, rfl⟩ id mentionedIn
    mentionsEach
  rw [List.map_id, ← text_eq, List.flatMap_assoc] at mentionsAll
  rw [allItems, List.flatMap_assoc]
  rwa [List.flatMap_congr fun clause isClause => (each clause isClause).2] at mentionsAll

/-- The update binds what its text mentions and the names of actions that write nothing. -/
theorem accounts_of_compile (accounts : clauses.Accounts idle) {compiled : CompiledExpression}
    (compiles : clauses.compile = .ok compiled) :
    compiled.bindings.Accounts compiled.text idle := by
  unfold compile at compiles
  split at compiles
  · cases compiles
  · obtain rfl := Except.ok.inj compiles
    exact ⟨_, mentions_text accounts.mentions, accounts.adds⟩

end UpdateClauses

end SingleTable
