import SingleTable.Proofs.Template.Preference
import SingleTable.Template.Pattern

/-!
# What an engine makes of a pattern

An engine is handed the text of a pattern.  It reads the text as pieces (`PatternPiece.read?`) and
tries the ways of matching them in turn, so that of several ways the first one counts
(`PatternPiece.captures`).  Whatever characters a template has, its pattern is read as the pieces that
were written (`PatternPiece.read?_chars`), and matching these is laying the template along the text
(`Template.matchText_eq_captures`).
-/

namespace SingleTable

namespace PatternPiece

open Template (Reading cuts)

variable {pieces : List PatternPiece} {cs : List Char}

/-! ## Reading a pattern -/

/-- The pieces that a pattern is read as.  A character that means something else to the engine stands
for itself only after an escape. -/
def read? : List Char → Option (List PatternPiece)
  | [] => some []
  | '\\' :: c :: rest => if c ∈ metacharacters then (read? rest).map (.character c :: ·) else none
  | '(' :: '.' :: '*' :: '?' :: ')' :: rest => (read? rest).map (.least :: ·)
  | '(' :: '.' :: '*' :: ')' :: rest => (read? rest).map (.most :: ·)
  | c :: rest => if c ∈ metacharacters then none else (read? rest).map (.character c :: ·)

theorem read?_escaped {c : Char} (isMeta : c ∈ metacharacters) :
    read? ('\\' :: c :: cs) = (read? cs).map (.character c :: ·) := by
  rw [read?, if_pos isMeta]

theorem read?_plain {c : Char} (notMeta : c ∉ metacharacters) :
    read? (c :: cs) = (read? cs).map (.character c :: ·) := by
  have notEscape : c ≠ '\\' := by
    rintro rfl
    exact notMeta (by decide)
  have notGroup : c ≠ '(' := by
    rintro rfl
    exact notMeta (by decide)
  rw [read?.eq_def]
  split <;> simp_all

/-- A pattern is read as the pieces that it was written from. -/
theorem read?_chars (pieces : List PatternPiece) : read? (pieces.flatMap chars) = some pieces := by
  induction pieces with
  | nil => rfl
  | cons piece pieces inductionHypothesis =>
    rw [List.flatMap_cons]
    cases piece with
    | character c =>
      by_cases isMeta : c ∈ metacharacters
      · rw [chars, if_pos (List.contains_iff_mem.2 isMeta), List.cons_append, List.singleton_append,
          read?_escaped isMeta, inductionHypothesis, Option.map_some]
      · rw [chars, if_neg (mt List.contains_iff_mem.1 isMeta), List.singleton_append,
          read?_plain isMeta, inductionHypothesis, Option.map_some]
    | least => simp [chars, read?, inductionHypothesis]
    | most => simp [chars, read?, inductionHypothesis]

/-! ## Matching the pieces -/

/-- The ways in which pieces match where a text starts, in the order in which they are tried, each by
what its groups take. -/
def captures : List PatternPiece → List Char → List Reading
  | [], _ => [[]]
  | character _ :: _, [] => []
  | character c :: rest, d :: cs => if c = d then captures rest cs else []
  | least :: rest, cs => (cuts cs).flatMap fun cut => (captures rest cut.2).map (cut.1 :: ·)
  | most :: rest, cs => (cuts cs).reverse.flatMap fun cut => (captures rest cut.2).map (cut.1 :: ·)

theorem captures_characters (fixed : List Char) :
    captures (fixed.map .character ++ pieces) cs =
      if fixed.isPrefixOf cs then captures pieces (cs.drop fixed.length) else [] := by
  induction fixed generalizing cs with
  | nil => simp
  | cons c fixed inductionHypothesis =>
    cases cs with
    | nil => rfl
    | cons d cs =>
      rw [List.map_cons, List.cons_append, captures]
      by_cases same : c = d
      · simp [same, inductionHypothesis]
      · simp [same]

end PatternPiece

namespace Template

/-- A matcher of segments tries what an engine tries with their pattern. -/
theorem tries_eq_captures (segments : List Segment) (cs : List Char) :
    tries segments cs = PatternPiece.captures (pieces segments) cs := by
  induction segments generalizing cs with
  | nil => rfl
  | cons segment rest inductionHypothesis =>
    rcases segment with fixed | raw
    · rw [tries, pieces, PatternPiece.captures_characters, inductionHypothesis]
    · cases rest with
      | nil => simp [tries, pieces, PatternPiece.captures, ← List.map_eq_flatMap]
      | cons next rest =>
        simp only [tries, pieces, PatternPiece.captures, inductionHypothesis]

/-- The pieces that an engine reads the pattern of a template as, if it starts where the text does. -/
def readPattern? (pattern : String) : Option (List PatternPiece) :=
  match pattern.toList with
  | '^' :: cs => PatternPiece.read? cs
  | _ => none

theorem readPattern?_pattern (source : String) :
    readPattern? (pattern source) = some (pieces (segments source.toList)) := by
  rw [readPattern?, pattern, String.toList_ofList]
  exact PatternPiece.read?_chars _

/-- What is found of a key is what the groups of the template's pattern take: nothing if the pattern
does not match, else what they take in the way of matching that is tried first. -/
theorem matchText_eq_captures (source physical : String) (wanted : List String) :
    ∃ pieces, readPattern? (pattern source) = some pieces ∧
      matchText source physical wanted =
        match (PatternPiece.captures pieces physical.toList).head? with
        | none => ∅
        | some groups =>
          collect wanted.contains ((segments source.toList).filterMap (·.name?)) groups := by
  refine ⟨pieces (segments source.toList), readPattern?_pattern source, ?_⟩
  have found := reading?_eq_head? (segments source.toList) physical.toList
  rw [tries_eq_captures] at found
  cases head_eq : (PatternPiece.captures (pieces (segments source.toList)) physical.toList).head? with
  | none => simp only [matchText, found, head_eq]
  | some groups => simp only [matchText, found, head_eq]

end Template

end SingleTable
