import SingleTable.Error
import SingleTable.Text.Blank

/-!
# Key templates

A key attribute is derived from the attributes of an entity by a template: either a text
with placeholders such as `USER#{{id}}`, or an alias that copies one attribute as it is.

A text is cut into segments once and for all by `segments`: a placeholder opens at the
first `{{` and closes at the first `}}` after it; an opening that is never closed is plain
text.  Interpolation walks the segments and stops at the first attribute that it cannot
render.
-/

namespace SingleTable

/-- A piece of a text template. -/
inductive Segment where
  | literal (text : List Char)
  /-- The characters between the braces, blanks included. -/
  | placeholder (raw : List Char)
  deriving DecidableEq, Repr

namespace Segment

/-- The attribute that a placeholder names. -/
def name? : Segment → Option String
  | literal _ => none
  | placeholder raw => some (String.ofList (Text.trim raw))

end Segment

namespace Template

/-! ## Cutting a text into segments -/

def splitPair (mark : Char) : List Char → Option (List Char × List Char)
  | c :: d :: rest =>
    if c = mark ∧ d = mark then some ([], rest)
    else (splitPair mark (d :: rest)).map fun (before, after) => (c :: before, after)
  | _ => none

theorem splitPair_eq {mark : Char} {cs before after : List Char}
    (split_eq : splitPair mark cs = some (before, after)) : cs = before ++ mark :: mark :: after := by
  fun_induction splitPair mark cs generalizing before after with
  | case1 c d rest isPair =>
    obtain ⟨rfl, rfl⟩ := by simpa using split_eq
    simp [isPair]
  | case2 c d rest _ inductionHypothesis =>
    obtain ⟨⟨b, a⟩, later_eq, pair_eq⟩ := Option.map_eq_some_iff.1 split_eq
    obtain ⟨rfl, rfl⟩ := by simpa using pair_eq
    simpa using inductionHypothesis later_eq
  | case3 => simp at split_eq

theorem length_of_splitPair {mark : Char} {cs before after : List Char}
    (split_eq : splitPair mark cs = some (before, after)) : after.length < cs.length := by
  rw [splitPair_eq split_eq]
  simp
  omega

def literal (text : List Char) : List Segment :=
  if text.isEmpty then [] else [.literal text]

def segments (cs : List Char) : List Segment :=
  match _hopen : splitPair '\x7b' cs with
  | none => literal cs
  | some (before, inner) =>
    match _hclose : splitPair '\x7d' inner with
    | none => literal cs
    | some (raw, rest) => literal before ++ .placeholder raw :: segments rest
termination_by cs.length
decreasing_by
  exact Nat.lt_trans (length_of_splitPair _hclose) (length_of_splitPair _hopen)

/-- The attributes that segments name, in order of first appearance. -/
def namesOf (segments : List Segment) : List String := (segments.filterMap (·.name?)).eraseDups

end Template

/-! ## Templates -/

/-- How a key attribute is derived from the attributes of an entity. -/
inductive Template where
  /-- A text with placeholders; the result is always a string. -/
  | text (source : String)
  /-- One attribute as it is, keeping its type. -/
  | copyOf (attr : String)
  deriving DecidableEq, Repr

/-- What it means that an attribute has no value. -/
inductive Completeness where
  /-- Every attribute must have a value. -/
  | strict
  /-- An attribute without value leaves the whole index out of the item. -/
  | sparse
  deriving DecidableEq, Repr

/-- Why a template has no value. -/
inductive InterpolationError where
  | unresolved (template attr : String)
  /-- The index is left out. -/
  | sparseSkip (attr : String)
  | invalidValue (attr : String)
  deriving DecidableEq, Repr

namespace InterpolationError

def message : InterpolationError → String
  | unresolved template attr => (Error.unresolved template attr).message
  | sparseSkip attr => "sparse index skipped, attribute \"" ++ attr ++ "\" has no value"
  | invalidValue attr => "attribute \"" ++ attr ++ "\" is not a string, number or boolean"

/-- The error of an operation that cannot go on without the value. -/
def toError : InterpolationError → Error
  | unresolved template attr => .unresolved template attr
  | sparseSkip attr => .unresolved "" attr
  | invalidValue attr => .keyValue attr

end InterpolationError

namespace Template

/-- A template as messages show it. -/
def display : Template → String
  | text source => source
  | copyOf attr => "\x7balias: " ++ attr ++ "\x7d"

def isAlias : Template → Bool
  | text _ => false
  | copyOf _ => true

/-- The attributes a template is derived from, in order of first appearance. -/
def names : Template → List String
  | text source => namesOf (segments source.toList)
  | copyOf attr => [attr]

def missing (mode : Completeness) (source attr : String) : InterpolationError :=
  match mode with
  | .strict => .unresolved source attr
  | .sparse => .sparseSkip attr

def render (mode : Completeness) (source : String) (attributes : Item) :
    List Segment → Except InterpolationError (List Char)
  | [] => .ok []
  | .literal fixed :: rest => do
    let tail ← render mode source attributes rest
    return fixed ++ tail
  | .placeholder raw :: rest =>
    let attr := String.ofList (Text.trim raw)
    match attributes.present? attr with
    | none => .error (missing mode source attr)
    | some value =>
      match value.keyText? with
      | none => .error (.invalidValue attr)
      | some rendered => do
        let tail ← render mode source attributes rest
        return rendered.toList ++ tail

/-- The value of a template over attributes.  A text renders strings, numbers and booleans;
an alias copies those and binary values, and never takes part in leaving an index out. -/
def interpolate (mode : Completeness) (attributes : Item) :
    Template → Except InterpolationError Value
  | text source =>
    (render mode source attributes (segments source.toList)).map fun cs =>
      .string (String.ofList cs)
  | copyOf attr =>
    match attributes.present? attr with
    | none => .error (.unresolved (copyOf attr).display attr)
    | some value => if value.isScalar then .ok value else .error (.invalidValue attr)

end Template

end SingleTable
