import SingleTable.Proofs.Expression.Bindings
import SingleTable.Proofs.Expression.Grammar

/-!
# What placeholders stand for

A condition is first read with its placeholders (`FormulaSyntax`) and then resolved through
the bindings of the request: a path becomes its segments, a value placeholder its value.  The
reference to a path and the placeholder of a value are read and resolved back to the path and
the value they were made for (`exists_syntax_referenceText`, `lexes_valuePlaceholder`), as long
as the path is *plain*: dotted words, each with list indexes.
-/

namespace SingleTable

open Grammar

/-! ## Plain paths -/

def IsDigits (text : String) : Prop := text.toList ≠ [] ∧ ∀ c ∈ text.toList, c.isDigit = true

instance (text : String) : Decidable (IsDigits text) :=
  decidable_of_iff (text.toList ≠ [] ∧ text.toList.all Char.isDigit = true)
    (and_congr_right fun _ => List.all_eq_true)

def indexText : List String → String
  | [] => ""
  | digits :: rest => "[" ++ digits ++ "]" ++ indexText rest

def PathSegment.IsPlain (segment : PathSegment) : Prop :=
  IsWord segment.name ∧
    ∃ indexes : List String, (∀ digits ∈ indexes, IsDigits digits) ∧ segment.indexes = indexText indexes

/-- A path of dotted words, each followed by list indexes. -/
def Path.IsPlain (path : String) : Prop := ∀ segment ∈ Path.segments path, segment.IsPlain

/-- Paths are plain if their segments are spelled by words and digits. -/
theorem Path.isPlain_of_spelled {paths : List String} (spelled : List (String × List String))
    (segments_eq : paths.flatMap Path.segments =
      spelled.map fun (name, indexes) => ⟨name, indexText indexes⟩)
    (plain : ∀ part ∈ spelled, IsWord part.1 ∧ ∀ digits ∈ part.2, IsDigits digits) :
    ∀ path ∈ paths, Path.IsPlain path := by
  intro path isMember segment isSegment
  have inAll : segment ∈ paths.flatMap Path.segments :=
    List.mem_flatMap.2 ⟨path, isMember, isSegment⟩
  rw [segments_eq] at inAll
  obtain ⟨⟨name, indexes⟩, isPart, rfl⟩ := List.mem_map.1 inAll
  exact ⟨(plain _ isPart).1, indexes, (plain _ isPart).2, rfl⟩

namespace Path

theorem splitDots_ne_nil (cs : List Char) : splitDots cs ≠ [] := by
  fun_induction splitDots cs <;> simp

theorem segments_ne_nil (path : String) : segments path ≠ [] := by
  simp [segments, splitDots_ne_nil]

theorem mem_splitDots {c : Char} {cs : List Char} (isMember : c ∈ cs) :
    c = '.' ∨ ∃ part ∈ splitDots cs, c ∈ part := by
  fun_induction splitDots cs with
  | case1 => simp at isMember
  | case2 cs inductionHypothesis =>
    rcases List.mem_cons.1 isMember with rfl | isMember
    · exact .inl rfl
    · rcases inductionHypothesis isMember with rfl | ⟨part, isPart, inPart⟩
      · exact .inl rfl
      · exact .inr ⟨part, by simp [isPart], inPart⟩
  | case3 d cs _ first rest split_eq inductionHypothesis =>
    rcases List.mem_cons.1 isMember with rfl | isMember
    · exact .inr ⟨c :: first, by simp, by simp⟩
    · rcases inductionHypothesis isMember with rfl | ⟨part, isPart, inPart⟩
      · exact .inl rfl
      · rw [split_eq] at isPart
        rcases List.mem_cons.1 isPart with rfl | isPart
        · exact .inr ⟨d :: part, by simp, by simp [inPart]⟩
        · exact .inr ⟨part, by simp [isPart], inPart⟩
  | case4 d cs _ split_eq _ => exact absurd split_eq (splitDots_ne_nil cs)

end Path

theorem mem_indexText {c : Char} {indexes : List String}
    (allDigits : ∀ digits ∈ indexes, IsDigits digits) (isMember : c ∈ (indexText indexes).toList) :
    c = '[' ∨ c = ']' ∨ isWordChar c = true := by
  induction indexes with
  | nil => simp [indexText] at isMember
  | cons digits indexes inductionHypothesis =>
    simp only [indexText, String.toList_append, List.mem_append, String.reduceToList,
      List.mem_singleton] at isMember
    rcases isMember with ((rfl | inDigits) | rfl) | inRest
    · exact .inl rfl
    · exact .inr (.inr (isWordChar_of_isDigit ((allDigits digits (by simp)).2 c inDigits)))
    · exact .inr (.inl rfl)
    · exact inductionHypothesis (fun other isLater => allDigits other (by simp [isLater])) inRest

theorem Path.IsPlain.mem {path : String} (plain : Path.IsPlain path) {c : Char}
    (isMember : c ∈ path.toList) : c = '.' ∨ c = '[' ∨ c = ']' ∨ isWordChar c = true := by
  rcases Path.mem_splitDots isMember with rfl | ⟨part, isPart, inPart⟩
  · exact .inl rfl
  · obtain ⟨isWordName, indexes, allDigits, indexes_eq⟩ :=
      plain (Path.segment part) (List.mem_map.2 ⟨part, isPart, rfl⟩)
    have part_eq : part = part.takeWhile (· ≠ '[') ++ part.dropWhile (· ≠ '[') :=
      List.takeWhile_append_dropWhile.symm
    rw [part_eq, List.mem_append] at inPart
    rcases inPart with inName | inIndexes
    · exact .inr (.inr (.inr (isWordName c (by simpa [Path.segment] using inName))))
    · have inText : c ∈ (indexText indexes).toList := by
        rw [← indexes_eq]
        simpa [Path.segment] using inIndexes
      exact .inr (mem_indexText allDigits inText)

theorem ExpressionKind.isWord_valueKey {path : String} (plain : Path.IsPlain path) :
    IsWord (ExpressionKind.valueKey path) := by
  intro c isMember
  simp only [ExpressionKind.valueKey, String.toList_ofList, List.mem_filterMap] at isMember
  obtain ⟨d, inPath, image⟩ := isMember
  split at image
  · obtain rfl : '_' = c := by simpa using image
    decide
  · next notMark =>
    split at image
    · simp at image
    · next notClose =>
      obtain rfl : d = c := by simpa using image
      rcases plain.mem inPath with rfl | rfl | rfl | isWord
      · simp at notMark
      · simp at notMark
      · simp at notClose
      · exact isWord

/-! ## Resolving -/

namespace Grammar

def SegmentSyntax.resolve (bindings : Bindings) (segment : SegmentSyntax) : Option PathSegment :=
  (bindings.names.get? segment.placeholder).map fun name => ⟨name, indexText segment.indexes⟩

def PathSyntax.resolve (bindings : Bindings) (path : PathSyntax) : Option (List PathSegment) :=
  (path.first :: path.others).mapM (SegmentSyntax.resolve bindings)

/-- An operand with its placeholders replaced by what they stand for. -/
def Operand.resolve (bindings : Bindings) :
    Operand PathSyntax String → Option (Operand (List PathSegment) Value)
  | .path written => (written.resolve bindings).map .path
  | .value placeholder => (bindings.values.get? placeholder).map .value
  | .size operand => (operand.resolve bindings).map .size

def Predicate.resolve (bindings : Bindings) :
    Predicate PathSyntax String → Option (Predicate (List PathSegment) Value)
  | .compare left comparison right => do
    return .compare (← left.resolve bindings) comparison (← right.resolve bindings)
  | .between operand low high => do
    return .between (← operand.resolve bindings) (← low.resolve bindings) (← high.resolve bindings)
  | .oneOf operand first others => do
    return .oneOf (← operand.resolve bindings) (← first.resolve bindings)
      (← others.mapM (Operand.resolve bindings))
  | .call function operand none => do
    return .call function (← operand.resolve bindings) none
  | .call function operand (some argument) => do
    return .call function (← operand.resolve bindings) (some (← argument.resolve bindings))

def Formula.resolve (bindings : Bindings) :
    FormulaSyntax → Option (Formula (Predicate (List PathSegment) Value))
  | .test predicate => (predicate.resolve bindings).map .test
  | .and left right => do return .and (← left.resolve bindings) (← right.resolve bindings)
  | .or left right => do return .or (← left.resolve bindings) (← right.resolve bindings)
  | .not formula => (formula.resolve bindings).map .not

/-! ## Larger bindings resolve to the same -/

section Within

variable {bindings larger : Bindings}

theorem mapM_of_each {α β : Type} {f g : α → Option β}
    (each : ∀ element result, f element = some result → g element = some result) :
    ∀ {elements : List α} {results : List β},
      elements.mapM f = some results → elements.mapM g = some results
  | [], _, isResolved => by simpa using isResolved
  | element :: elements, results, isResolved => by
    simp only [List.mapM_cons, Option.pure_def, Option.bind_eq_bind, Option.bind_eq_some_iff,
      Option.some.injEq] at isResolved ⊢
    obtain ⟨first, isFirst, others, areOthers, rfl⟩ := isResolved
    exact ⟨first, each _ _ isFirst, others, mapM_of_each each areOthers, rfl⟩

theorem SegmentSyntax.resolve_within (within : bindings.Within larger) {segment : SegmentSyntax}
    {resolved : PathSegment} (isResolved : segment.resolve bindings = some resolved) :
    segment.resolve larger = some resolved := by
  obtain ⟨name, isBound, rfl⟩ := Option.map_eq_some_iff.1 isResolved
  simp only [SegmentSyntax.resolve, within.names isBound, Option.map_some]

theorem PathSyntax.resolve_within (within : bindings.Within larger) {path : PathSyntax}
    {resolved : List PathSegment} (isResolved : path.resolve bindings = some resolved) :
    path.resolve larger = some resolved :=
  mapM_of_each (fun _ _ => SegmentSyntax.resolve_within within) isResolved

theorem Operand.resolve_within (within : bindings.Within larger)
    {operand : Operand PathSyntax String} {resolved : Operand (List PathSegment) Value}
    (isResolved : operand.resolve bindings = some resolved) : operand.resolve larger = some resolved := by
  induction operand generalizing resolved with
  | path path =>
    obtain ⟨segments, isPath, rfl⟩ := Option.map_eq_some_iff.1 isResolved
    simp only [Operand.resolve, PathSyntax.resolve_within within isPath, Option.map_some]
  | value placeholder =>
    obtain ⟨value, isBound, rfl⟩ := Option.map_eq_some_iff.1 isResolved
    simp only [Operand.resolve, within.values isBound, Option.map_some]
  | size operand inductionHypothesis =>
    obtain ⟨inner, isInner, rfl⟩ := Option.map_eq_some_iff.1 isResolved
    simp only [Operand.resolve, inductionHypothesis isInner, Option.map_some]

theorem Predicate.resolve_within (within : bindings.Within larger)
    {predicate : Predicate PathSyntax String} {resolved : Predicate (List PathSegment) Value}
    (isResolved : predicate.resolve bindings = some resolved) : predicate.resolve larger = some resolved := by
  cases predicate with
  | compare left comparison right =>
    simp only [Predicate.resolve, Option.pure_def, Option.bind_eq_bind,
      Option.bind_eq_some_iff, Option.some.injEq] at isResolved ⊢
    obtain ⟨_, isLeft, _, isRight, rfl⟩ := isResolved
    exact ⟨_, Operand.resolve_within within isLeft, _, Operand.resolve_within within isRight, rfl⟩
  | between operand low high =>
    simp only [Predicate.resolve, Option.pure_def, Option.bind_eq_bind,
      Option.bind_eq_some_iff, Option.some.injEq] at isResolved ⊢
    obtain ⟨_, isOperand, _, isLow, _, isHigh, rfl⟩ := isResolved
    exact ⟨_, Operand.resolve_within within isOperand, _, Operand.resolve_within within isLow, _,
      Operand.resolve_within within isHigh, rfl⟩
  | oneOf operand first others =>
    simp only [Predicate.resolve, Option.pure_def, Option.bind_eq_bind,
      Option.bind_eq_some_iff, Option.some.injEq] at isResolved ⊢
    obtain ⟨_, isOperand, _, isFirst, _, areOthers, rfl⟩ := isResolved
    exact ⟨_, Operand.resolve_within within isOperand, _, Operand.resolve_within within isFirst, _,
      mapM_of_each (fun _ _ => Operand.resolve_within within) areOthers, rfl⟩
  | call function operand argument =>
    cases argument with
    | none =>
      simp only [Predicate.resolve, Option.pure_def, Option.bind_eq_bind,
        Option.bind_eq_some_iff, Option.some.injEq] at isResolved ⊢
      obtain ⟨_, isOperand, rfl⟩ := isResolved
      exact ⟨_, Operand.resolve_within within isOperand, rfl⟩
    | some argument =>
      simp only [Predicate.resolve, Option.pure_def, Option.bind_eq_bind,
        Option.bind_eq_some_iff, Option.some.injEq] at isResolved ⊢
      obtain ⟨_, isOperand, _, isArgument, rfl⟩ := isResolved
      exact ⟨_, Operand.resolve_within within isOperand, _, Operand.resolve_within within isArgument,
        rfl⟩

theorem Formula.resolve_within (within : bindings.Within larger) {formula : FormulaSyntax}
    {resolved : Formula (Predicate (List PathSegment) Value)}
    (isResolved : formula.resolve bindings = some resolved) : formula.resolve larger = some resolved := by
  induction formula generalizing resolved with
  | test predicate =>
    obtain ⟨inner, isInner, rfl⟩ := Option.map_eq_some_iff.1 isResolved
    simp only [Formula.resolve, Predicate.resolve_within within isInner, Option.map_some]
  | and left right leftHypothesis rightHypothesis | or left right leftHypothesis rightHypothesis =>
    simp only [Formula.resolve, Option.pure_def, Option.bind_eq_bind, Option.bind_eq_some_iff,
      Option.some.injEq] at isResolved ⊢
    obtain ⟨_, isLeft, _, isRight, rfl⟩ := isResolved
    exact ⟨_, leftHypothesis isLeft, _, rightHypothesis isRight, rfl⟩
  | not formula inductionHypothesis =>
    obtain ⟨inner, isInner, rfl⟩ := Option.map_eq_some_iff.1 isResolved
    simp only [Formula.resolve, inductionHypothesis isInner, Option.map_some]

end Within

/-! ## Texts between marks -/

/-- Texts joined by a mark that starts and ends with separators are read one by one. -/
theorem Lexes.intercalate {α : Type} (tokensOf : α → List Token) {mark : String}
    {markTokens : List Token} (lexesMark : Lexes mark markTokens) (opens : Opens mark)
    (closes : Closes mark) {firstText : String} {first : α} {texts : List String} {others : List α}
    (lexesFirst : Lexes firstText (tokensOf first))
    (lexesOthers : List.Forall₂ (fun text other => Lexes text (tokensOf other)) texts others) :
    Lexes (mark.intercalate (firstText :: texts))
      (tokensOf first ++ others.flatMap fun other => markTokens ++ tokensOf other) := by
  induction lexesOthers generalizing firstText first with
  | nil => simpa using lexesFirst
  | cons lexesSecond _ inductionHypothesis =>
    have lexesRest := inductionHypothesis lexesSecond
    have lexesAll := lexesFirst.joined lexesMark lexesRest opens closes
    rw [String.intercalate_cons_cons]
    simpa using lexesAll

theorem opens_dot : Opens "." := ⟨'.', [], rfl, rfl⟩

theorem closes_dot : Closes "." := ⟨'.', [], rfl, rfl⟩

theorem lexes_indexText {indexes : List String} (allDigits : ∀ digits ∈ indexes, IsDigits digits) :
    Lexes (indexText indexes) (indexTokens indexes) := by
  induction indexes with
  | nil => decide
  | cons digits indexes inductionHypothesis =>
    obtain ⟨nonempty, areDigits⟩ := allDigits digits (by simp)
    have lexesDigits : Lexes digits [.number digits] := by
      simpa using lexes_number nonempty areDigits
    have lexesOpen : Lexes "[" [.openBracket] := by decide
    have lexesClose : Lexes "]" [.closeBracket] := by decide
    have lexesRest := inductionHypothesis fun other isMember => allDigits other (by simp [isMember])
    have closes : Closes ("[" ++ digits ++ "]") := .prepend ⟨']', [], rfl, rfl⟩ _
    exact ((lexesOpen.closed lexesDigits ⟨'[', [], rfl, rfl⟩).followed lexesClose
      ⟨']', [], rfl, rfl⟩).closed lexesRest closes

theorem opens_indexText {indexes : List String} (nonempty : indexes ≠ []) :
    Opens (indexText indexes) := by
  cases indexes with
  | nil => exact absurd rfl nonempty
  | cons digits indexes =>
    exact ⟨'[', (digits ++ "]" ++ indexText indexes).toList, by simp [indexText], rfl⟩

theorem lexes_segment {placeholder : String} (lexesName : Lexes placeholder [.name placeholder])
    {indexes : List String} (allDigits : ∀ digits ∈ indexes, IsDigits digits) :
    Lexes (placeholder ++ indexText indexes) (.name placeholder :: indexTokens indexes) := by
  by_cases nonempty : indexes = []
  · subst nonempty
    simpa [indexText, indexTokens] using lexesName
  · exact lexesName.followed (lexes_indexText allDigits) (opens_indexText nonempty)

end Grammar

/-! ## References to paths -/

theorem isWord_mark (kind : ExpressionKind) : IsWord kind.mark := by cases kind <;> decide

namespace ExpressionKind

variable {kind : ExpressionKind}

/-- The placeholders made for words are words after their `#`. -/
theorem lexes_reference (kind : ExpressionKind) {qualified : String} (isWord : IsWord qualified)
    {segments : List PathSegment} (plain : ∀ segment ∈ segments, segment.IsPlain) :
    ∀ reference ∈ kind.referencesFrom qualified segments,
      Lexes reference.placeholder [.name reference.placeholder] ∧
        ∃ indexes : List String, (∀ digits ∈ indexes, IsDigits digits) ∧
          reference.indexes = indexText indexes := by
  induction segments generalizing qualified with
  | nil => simp [referencesFrom]
  | cons segment segments inductionHypothesis =>
    obtain ⟨isWordName, plainIndexes⟩ := plain segment (by simp)
    have isWordJoined : IsWord (if qualified.isEmpty then segment.name
        else qualified ++ "_" ++ segment.name) := by
      split
      · exact isWordName
      · exact (isWord.append (by decide)).append isWordName
    intro reference isMember
    simp only [referencesFrom, List.mem_cons] at isMember
    rcases isMember with rfl | isMember
    · refine ⟨?_, plainIndexes⟩
      generalize (if qualified.isEmpty then segment.name
        else qualified ++ "_" ++ segment.name) = joined at isWordJoined ⊢
      simp only [String.append_assoc]
      exact lexes_name ((isWord_mark kind).append isWordJoined)
    · exact inductionHypothesis isWordJoined (fun other isLater => plain other (by simp [isLater]))
        reference isMember

theorem map_referencesFrom (kind : ExpressionKind) (qualified : String) (segments : List PathSegment) :
    (kind.referencesFrom qualified segments).map (fun r => (⟨r.name, r.indexes⟩ : PathSegment)) =
      segments := by
  induction segments generalizing qualified with
  | nil => rfl
  | cons segment segments inductionHypothesis =>
    simp [referencesFrom, inductionHypothesis]

/-- Written segments for references whose placeholders are bound. -/
theorem exists_syntax_of_references {bindings : Bindings} (references : List Reference)
    (each : ∀ reference ∈ references,
      (Lexes reference.placeholder [.name reference.placeholder] ∧
        ∃ indexes : List String, (∀ digits ∈ indexes, IsDigits digits) ∧
          reference.indexes = indexText indexes) ∧
      bindings.names.get? reference.placeholder = some reference.name) :
    ∃ written : List SegmentSyntax,
      references.map (fun r => r.placeholder ++ r.indexes) =
        written.map (fun w => w.placeholder ++ indexText w.indexes) ∧
      (∀ w ∈ written, Lexes (w.placeholder ++ indexText w.indexes)
        (.name w.placeholder :: indexTokens w.indexes)) ∧
      written.mapM (SegmentSyntax.resolve bindings) =
        some (references.map fun r => (⟨r.name, r.indexes⟩ : PathSegment)) := by
  induction references with
  | nil => exact ⟨[], rfl, by simp, rfl⟩
  | cons reference references inductionHypothesis =>
    obtain ⟨⟨lexesName, indexes, allDigits, indexes_eq⟩, isBound⟩ := each reference (by simp)
    obtain ⟨written, texts_eq, lexesWritten, resolved⟩ :=
      inductionHypothesis fun other isMember => each other (by simp [isMember])
    refine ⟨⟨reference.placeholder, indexes⟩ :: written, ?_, ?_, ?_⟩
    · simp [indexes_eq, texts_eq]
    · intro w isMember
      rcases List.mem_cons.1 isMember with rfl | isMember
      · exact lexes_segment lexesName allDigits
      · exact lexesWritten w isMember
    · simp [SegmentSyntax.resolve, isBound, resolved, indexes_eq]

/-- The reference to a plain path whose placeholders are bound is read as a path that resolves
to the segments of the path. -/
theorem exists_syntax_referenceText {path : String} (plain : Path.IsPlain path)
    {bindings : Bindings} (bound : ∀ reference ∈ kind.references path,
      bindings.names.get? reference.placeholder = some reference.name) :
    ∃ written : PathSyntax, Lexes (kind.referenceText path) written.tokens ∧
      written.resolve bindings = some (Path.segments path) := by
  have isWordEmpty : IsWord "" := by decide
  have lexed := lexes_reference kind isWordEmpty plain
  obtain ⟨written, texts_eq, lexesWritten, resolved⟩ :=
    exists_syntax_of_references (kind.references path) fun reference isMember =>
      ⟨lexed reference isMember, bound reference isMember⟩
  have segments_eq := map_referencesFrom kind "" (Path.segments path)
  rw [show kind.referencesFrom "" (Path.segments path) = kind.references path from rfl] at segments_eq
  cases written with
  | nil =>
    have noSegments : Path.segments path = [] := by
      have noReferences : kind.references path = [] := by simpa using texts_eq
      rw [← segments_eq, noReferences, List.map_nil]
    exact absurd noSegments (Path.segments_ne_nil path)
  | cons first others =>
    refine ⟨⟨first, others⟩, ?_, ?_⟩
    · have lexesDot : Lexes "." [.dot] := by decide
      let tokensOf (w : SegmentSyntax) : List Token := .name w.placeholder :: indexTokens w.indexes
      have lexesOthers : List.Forall₂ (fun text w => Lexes text (tokensOf w))
          (others.map fun w => w.placeholder ++ indexText w.indexes) others := by
        rw [List.forall₂_map_left_iff, List.forall₂_same]
        exact fun w isMember => lexesWritten w (by simp [isMember])
      have lexesAll := lexesDot.intercalate tokensOf opens_dot closes_dot
        (lexesWritten first (by simp)) lexesOthers
      rw [referenceText, texts_eq]
      simpa [PathSyntax.tokens, segmentTokens, tokensOf] using lexesAll
    · rw [PathSyntax.resolve, resolved, segments_eq]

/-! ## Placeholders of values -/

theorem lexes_valuePlaceholder {path suffix : String} (plain : Path.IsPlain path)
    (isWord : IsWord suffix) :
    Lexes (kind.valuePlaceholder path suffix) [.value (kind.valuePlaceholder path suffix)] := by
  have isWordText : IsWord (kind.mark ++ valueKey path ++ suffix) :=
    ((isWord_mark kind).append (isWord_valueKey plain)).append isWord
  have shape : kind.valuePlaceholder path suffix = ":" ++ (kind.mark ++ valueKey path ++ suffix) := by
    simp only [valuePlaceholder, String.append_assoc]
  rw [shape]
  exact lexes_value isWordText

end ExpressionKind

end SingleTable
