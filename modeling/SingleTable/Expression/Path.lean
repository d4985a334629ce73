import SingleTable.NameMap

/-!
# Attribute paths

A path such as `a.b[1].c` names an attribute inside others: segments between dots, each a
name and the list indexes that follow it.
-/

namespace SingleTable

/-- One segment of a path: a name, and the text from its first `[` on. -/
structure PathSegment where
  name : String
  indexes : String
  deriving DecidableEq, Repr

namespace Path

def splitDots : List Char → List (List Char)
  | [] => [[]]
  | c :: cs =>
    if c = '.' then [] :: splitDots cs
    else
      match splitDots cs with
      | first :: rest => (c :: first) :: rest
      | [] => [[c]]

def segment (cs : List Char) : PathSegment :=
  ⟨String.ofList (cs.takeWhile (· ≠ '[')), String.ofList (cs.dropWhile (· ≠ '['))⟩

def segments (path : String) : List PathSegment := (splitDots path.toList).map segment

/-- The attribute at the top of a path: all before the first dot or bracket. -/
def top (path : String) : String :=
  String.ofList (path.toList.takeWhile fun c => c ≠ '.' && c ≠ '[')

end Path

end SingleTable
