import SingleTable.Template

/-!
# Recovering attributes from a key

A key text is read back by laying its template along it from the start: literals must
match, and each placeholder takes as few characters as possible, so that the first
placeholder is shortest, then the second, and so on.  Only a placeholder that ends the
template takes as many as it can.  A placeholder never takes a line feed, and what follows
the template is ignored.

For segments `matchSuffixes` computes the readings of *every* suffix of the text at once,
from the last segment to the first, so that no suffix is ever read twice.
-/

namespace SingleTable.Template

/-- What the placeholders of a reading took, first placeholder first. -/
abbrev Reading := List (List Char)

def front (table : List (Option Reading)) : Option Reading := table.head?.join

def literalSuffixes (fixed : List Char) :
    List Char → List (Option Reading) → List (Option Reading)
  | cs, table =>
    let here := if fixed.isPrefixOf cs then front (table.drop fixed.length) else none
    match cs with
    | [] => [here]
    | _ :: rest => here :: literalSuffixes fixed rest table.tail

/-- Readings by suffix of a placeholder that takes as little as possible before what
`table` reads. -/
def gapSuffixes : List Char → List (Option Reading) → List (Option Reading)
  | [], table => [(front table).map ([] :: ·)]
  | c :: rest, table =>
    let longer := gapSuffixes rest table.tail
    let here :=
      match front table with
      -- what follows fits here already, so nothing need be taken
      | some reading => some ([] :: reading)
      | none =>
        match front longer with
        | some (taken :: reading) => if c = '\n' then none else some ((c :: taken) :: reading)
        | _ => none
    here :: longer

def lineSuffixes : List Char → List (Option Reading)
  | [] => [some [[]]]
  | c :: rest => some [(c :: rest).takeWhile (· ≠ '\n')] :: lineSuffixes rest

def matchSuffixes : List Segment → List Char → List (Option Reading)
  | [], cs => List.replicate (cs.length + 1) (some [])
  | [.placeholder _], cs => lineSuffixes cs
  | .literal fixed :: rest, cs => literalSuffixes fixed cs (matchSuffixes rest cs)
  | .placeholder _ :: rest, cs => gapSuffixes cs (matchSuffixes rest cs)

def reading? (segments : List Segment) (cs : List Char) : Option Reading :=
  front (matchSuffixes segments cs)

/-- Give each wanted name the text of its first placeholder. -/
def collect (wanted : String → Bool) : List String → Reading → NameMap String
  | name :: names, taken :: reading =>
    let later := collect wanted names reading
    if wanted name then later.insert name (String.ofList taken) else later
  | _, _ => ∅

/-- The texts that a template's placeholders take of a key, for the names in a list. -/
def matchText (source physical : String) (wanted : List String) : NameMap String :=
  let segments := segments source.toList
  match reading? segments physical.toList with
  | none => ∅
  | some reading => collect wanted.contains (segments.filterMap (·.name?)) reading

/-- The attributes that a template finds in a key value.  An alias finds its attribute in
any value, a text only in a string. -/
def recover (physical : Value) : Template → Item
  | copyOf attr => Item.single attr physical
  | text source =>
    match physical with
    | .string key => (matchText source key (text source).names).map .string
    | _ => ∅

end SingleTable.Template
