import Mathlib.Data.List.SplitBy
import SingleTable.Expression.Draft

/-!
# Tokens of expressions

The service reads the text of an expression as a list of tokens: placeholders, keywords,
names of functions, symbols and the digits of list indexes.  Characters that belong to one
token are *glued*; a text falls apart wherever two neighbours are not, and blanks are dropped.

`Lexes.append` is the only way in which later modules take a text apart: a text and its
continuation are read separately as long as no token reaches across the seam.
-/

namespace SingleTable.Grammar

/-- Characters of placeholders and keywords: letters of any script, digits and `_`. -/
def isWordChar (c : Char) : Bool := c.isAlphanum || c == '_' || 0x80 ≤ c.toNat

def glued (c d : Char) : Bool :=
  (isWordChar d && (isWordChar c || c == '#' || c == ':'))
    || (c == '<' && (d == '=' || d == '>')) || (c == '>' && d == '=')

/-- A token of an expression. -/
inductive Token where
  /-- A placeholder that stands for an attribute name. -/
  | name (placeholder : String)
  /-- A placeholder that stands for a value. -/
  | value (placeholder : String)
  /-- The digits of a list index. -/
  | number (digits : String)
  | and
  | or
  | not
  | between
  | inList
  | size
  | function (function : AttributeFunction)
  | comparison (comparison : Comparison)
  | openParen
  | closeParen
  | openBracket
  | closeBracket
  | comma
  | dot
  | plus
  | minus
  | set
  | add
  | remove
  | delete
  | ifNotExists
  | listAppend
  deriving DecidableEq, Repr

namespace Token

/-- The tokens with a fixed text. -/
def reserved : List (String × Token) :=
  [("AND", .and), ("OR", .or), ("NOT", .not), ("BETWEEN", .between), ("IN", .inList),
    ("size", .size), ("begins_with", .function .beginsWith), ("contains", .function .contains),
    ("attribute_exists", .function .present), ("attribute_not_exists", .function .absent),
    ("attribute_type", .function .hasType), ("=", .comparison .equal),
    ("<>", .comparison .notEqual), ("<", .comparison .less), ("<=", .comparison .lessOrEqual),
    (">", .comparison .greater), (">=", .comparison .greaterOrEqual), ("(", .openParen),
    (")", .closeParen), ("[", .openBracket), ("]", .closeBracket), (",", .comma), (".", .dot),
    ("+", .plus), ("-", .minus), ("SET", .set), ("ADD", .add), ("REMOVE", .remove),
    ("DELETE", .delete), ("if_not_exists", .ifNotExists), ("list_append", .listAppend)]

def ofRun : List Char → Option Token
  | '#' :: rest => some (.name (String.ofList ('#' :: rest)))
  | ':' :: rest => some (.value (String.ofList (':' :: rest)))
  | run =>
    if run.all Char.isDigit then some (.number (String.ofList run))
    else reserved.lookup (String.ofList run)

end Token

/-- The tokens of a text; there are none if a run of its characters is no token. -/
def tokens? (text : String) : Option (List Token) :=
  ((text.toList.splitBy glued).filter (· ≠ [' '])).mapM Token.ofRun

def Lexes (text : String) (tokens : List Token) : Prop := tokens? text = some tokens

instance (text : String) (tokens : List Token) : Decidable (Lexes text tokens) :=
  inferInstanceAs (Decidable (_ = _))

/-- No token reaches from the end of one text into the next. -/
def Apart (first second : String) : Prop :=
  ∀ c ∈ first.toList.getLast?, ∀ d ∈ second.toList.head?, glued c d = false

/-! ## Seams -/

/-- Characters that are never part of a longer token. -/
def isSeparator (c : Char) : Bool := c ∈ [' ', '(', ')', '[', ']', ',', '.']

theorem glued_separator {c d : Char} (separator : isSeparator d = true) : glued c d = false := by
  simp only [isSeparator, List.mem_cons, List.not_mem_nil, or_false, decide_eq_true_eq] at separator
  have apart : isWordChar d = false ∧ d ≠ '=' ∧ d ≠ '>' := by
    rcases separator with rfl | rfl | rfl | rfl | rfl | rfl | rfl <;> decide
  simp [glued, apart.1, apart.2.1, apart.2.2]

theorem separator_glued {c d : Char} (separator : isSeparator c = true) : glued c d = false := by
  simp only [isSeparator, List.mem_cons, List.not_mem_nil, or_false, decide_eq_true_eq] at separator
  have apart : (isWordChar c || c == '#' || c == ':') = false ∧ c ≠ '<' ∧ c ≠ '>' := by
    rcases separator with rfl | rfl | rfl | rfl | rfl | rfl | rfl <;> decide
  simp [glued, apart.1, apart.2.1, apart.2.2]

def Opens (text : String) : Prop := ∃ c rest, text.toList = c :: rest ∧ isSeparator c = true

def Closes (text : String) : Prop := ∃ c front, text.toList = front ++ [c] ∧ isSeparator c = true

theorem Closes.prepend {text : String} (closes : Closes text) (other : String) :
    Closes (other ++ text) := by
  obtain ⟨c, front, shape, separator⟩ := closes
  exact ⟨c, other.toList ++ front, by simp [shape], separator⟩

theorem Apart.of_opens {first second : String} (opens : Opens second) : Apart first second := by
  obtain ⟨c, rest, shape, separator⟩ := opens
  intro last _ head isHead
  rw [shape] at isHead
  obtain rfl : c = head := by simpa using isHead
  exact glued_separator separator

theorem Apart.of_closes {first second : String} (closes : Closes first) : Apart first second := by
  obtain ⟨c, front, shape, separator⟩ := closes
  intro last isLast head _
  rw [shape] at isLast
  obtain rfl : c = last := by simpa using isLast
  exact separator_glued separator

/-! ## Reading a text piece by piece -/

theorem Lexes.append {first second : String} {firstTokens secondTokens : List Token}
    (lexesFirst : Lexes first firstTokens) (lexesSecond : Lexes second secondTokens)
    (apart : Apart first second) : Lexes (first ++ second) (firstTokens ++ secondTokens) := by
  unfold Lexes tokens? at *
  rw [String.toList_append, List.splitBy_append apart, List.filter_append, List.mapM_append,
    lexesFirst, lexesSecond]
  rfl

theorem Lexes.followed {first second : String} {firstTokens secondTokens : List Token}
    (lexesFirst : Lexes first firstTokens) (lexesSecond : Lexes second secondTokens)
    (opens : Opens second) : Lexes (first ++ second) (firstTokens ++ secondTokens) :=
  lexesFirst.append lexesSecond (.of_opens opens)

theorem Lexes.closed {first second : String} {firstTokens secondTokens : List Token}
    (lexesFirst : Lexes first firstTokens) (lexesSecond : Lexes second secondTokens)
    (closes : Closes first) : Lexes (first ++ second) (firstTokens ++ secondTokens) :=
  lexesFirst.append lexesSecond (.of_closes closes)

/-- Two texts with a mark between them that starts and ends with separators. -/
theorem Lexes.joined {first mark second : String} {firstTokens markTokens secondTokens : List Token}
    (lexesFirst : Lexes first firstTokens) (lexesMark : Lexes mark markTokens)
    (lexesSecond : Lexes second secondTokens) (opens : Opens mark) (closes : Closes mark) :
    Lexes (first ++ mark ++ second) (firstTokens ++ markTokens ++ secondTokens) :=
  (lexesFirst.followed lexesMark opens).closed lexesSecond (closes.prepend first)

theorem Lexes.of_run {run : List Char} {token : Token} (nonempty : run ≠ [])
    (chain : run.IsChain fun c d => glued c d = true) (notBlank : run ≠ [' '])
    (token_eq : Token.ofRun run = some token) : Lexes (String.ofList run) [token] := by
  unfold Lexes tokens?
  rw [String.toList_ofList, List.splitBy_of_isChain nonempty chain]
  simp [notBlank, token_eq]

/-! ## Words -/

def IsWord (text : String) : Prop := ∀ c ∈ text.toList, isWordChar c = true

instance (text : String) : Decidable (IsWord text) :=
  decidable_of_iff (text.toList.all isWordChar = true) List.all_eq_true

theorem IsWord.append {first second : String} (isWordFirst : IsWord first)
    (isWordSecond : IsWord second) : IsWord (first ++ second) := by
  intro c hc
  rw [String.toList_append, List.mem_append] at hc
  exact hc.elim (isWordFirst c) (isWordSecond c)

theorem isChain_of_isWord {cs : List Char} (isWord : ∀ c ∈ cs, isWordChar c = true) {first : Char}
    (leads : isWordChar first || first == '#' || first == ':') :
    (first :: cs).IsChain fun c d => glued c d = true := by
  induction cs generalizing first with
  | nil => exact .singleton first
  | cons c cs inductionHypothesis =>
    have isWordHead : isWordChar c = true := isWord c (by simp)
    refine List.isChain_cons_cons.2 ⟨?_, ?_⟩
    · simp only [Bool.or_eq_true] at leads
      simp only [glued, isWordHead, Bool.true_and, Bool.or_eq_true]
      exact .inl (.inl leads)
    · exact inductionHypothesis (fun d hd => isWord d (by simp [hd])) (by simp [isWordHead])

theorem lexes_name {text : String} (isWord : IsWord text) :
    Lexes ("#" ++ text) [.name ("#" ++ text)] := by
  have run_eq : "#" ++ text = String.ofList ('#' :: text.toList) := by
    rw [← String.toList_inj]; simp
  rw [run_eq]
  exact .of_run (by simp) (isChain_of_isWord isWord (by decide)) (by simp) rfl

theorem lexes_value {text : String} (isWord : IsWord text) :
    Lexes (":" ++ text) [.value (":" ++ text)] := by
  have run_eq : ":" ++ text = String.ofList (':' :: text.toList) := by
    rw [← String.toList_inj]; simp
  rw [run_eq]
  exact .of_run (by simp) (isChain_of_isWord isWord (by decide)) (by simp) rfl

theorem isWordChar_of_isDigit {c : Char} (digit : c.isDigit = true) : isWordChar c = true := by
  simp [isWordChar, Char.isAlphanum, digit]

theorem lexes_number {digits : List Char} (nonempty : digits ≠ [])
    (allDigits : ∀ c ∈ digits, c.isDigit = true) :
    Lexes (String.ofList digits) [.number (String.ofList digits)] := by
  have isWord : ∀ c ∈ digits, isWordChar c = true := fun c hc => isWordChar_of_isDigit (allDigits c hc)
  obtain ⟨first, rest, rfl⟩ := List.exists_cons_of_ne_nil nonempty
  have digit : first.isDigit = true := allDigits first (by simp)
  refine .of_run nonempty ?_ ?_ ?_
  · exact isChain_of_isWord (fun c hc => isWord c (by simp [hc])) (by simp [isWord first])
  · rintro ⟨⟩
    exact absurd digit (by decide)
  · unfold Token.ofRun
    split
    · next h => exact absurd digit (by rw [(List.cons.inj h).1]; decide)
    · next h => exact absurd digit (by rw [(List.cons.inj h).1]; decide)
    · simp only [List.all_eq_true.2 allDigits, if_true]

end SingleTable.Grammar
