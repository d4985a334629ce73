import SingleTable.Template

/-!
# Patterns of templates

A key text is read back by an engine for regular expressions.  It is handed a pattern that starts
where the text starts: a literal stands for itself, with an escape before each character that means
something else to the engine, and a placeholder is a group that takes as little of a line as it can,
or as much as it can if it ends the template.

The engine compiles a pattern before it matches it, and may refuse to.  No template makes a pattern
that is malformed, but one of thousands of placeholders makes one that is too large.
-/

namespace SingleTable

inductive PatternPiece where
  | character (c : Char)
  /-- A group that takes as little as it can. -/
  | least
  /-- A group that takes as much as it can. -/
  | most
  deriving DecidableEq, Repr

namespace PatternPiece

/-- The characters that an engine takes for something else than themselves. -/
def metacharacters : List Char :=
  ['\\', '.', '+', '*', '?', '(', ')', '|', '[', ']', '\x7b', '\x7d', '^', '$', '#', '&', '-', '~']

def chars : PatternPiece → List Char
  | character c => if metacharacters.contains c then ['\\', c] else [c]
  | least => ['(', '.', '*', '?', ')']
  | most => ['(', '.', '*', ')']

end PatternPiece

namespace Template

def pieces : List Segment → List PatternPiece
  | [] => []
  | .literal fixed :: rest => fixed.map .character ++ pieces rest
  | [.placeholder _] => [.most]
  | .placeholder _ :: rest => .least :: pieces rest

def pattern (source : String) : String :=
  String.ofList ('^' :: (pieces (segments source.toList)).flatMap (·.chars))

end Template

/-- An engine that patterns are handed to, by which of them it refuses, and with what message. -/
structure PatternEngine where
  refusal? : String → Option String

namespace PatternEngine

def lenient : PatternEngine := ⟨fun _ => none⟩

end PatternEngine

/-- Why a template cannot be laid along a key value: its pattern is refused.  An alias has no pattern,
and a value that is not a string is not looked at. -/
def Template.refusal? (engine : PatternEngine) (physical : Value) : Template → Option String
  | copyOf _ => none
  | text source =>
    match physical with
    | .string _ => engine.refusal? (pattern source)
    | _ => none

end SingleTable
