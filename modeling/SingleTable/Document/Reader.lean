import SingleTable.Decimal.Numeral
import SingleTable.Document

/-!
# Reading documents

A recursive reader over the characters of a text.  Of two steps in a row at least one takes
a character, so twice the length of the text bounds the steps of the reader.
-/

namespace SingleTable.Document

abbrev Read (α : Type) := Option (α × List Char)

/-- The characters after the blanks between tokens. -/
def skipBlanks (cs : List Char) : List Char :=
  cs.dropWhile fun c => c = ' ' || c = '\n' || c = '\r' || c = '\t'

def hexValue? (c : Char) : Option Nat :=
  if c.isDigit then some (c.toNat - 0x30)
  else if 'a' ≤ c ∧ c ≤ 'f' then some (c.toNat - 0x57)
  else if 'A' ≤ c ∧ c ≤ 'F' then some (c.toNat - 0x37)
  else none

def readUnit : List Char → Option (Nat × List Char)
  | a :: b :: c :: d :: rest => do
    let a ← hexValue? a
    let b ← hexValue? b
    let c ← hexValue? c
    let d ← hexValue? d
    some (4096 * a + 256 * b + 16 * c + d, rest)
  | _ => none

/-- A character written as one code unit, or as a high and a low surrogate. -/
def readEscapedUnit (cs : List Char) : Option (Char × List Char) := do
  let (unit, rest) ← readUnit cs
  if 0xd800 ≤ unit ∧ unit < 0xdc00 then
    match rest with
    | '\\' :: 'u' :: rest =>
      let (low, rest) ← readUnit rest
      if 0xdc00 ≤ low ∧ low < 0xe000 then
        some (Char.ofNat (0x10000 + 1024 * (unit - 0xd800) + (low - 0xdc00)), rest)
      else none
    | _ => none
  else if 0xdc00 ≤ unit ∧ unit < 0xe000 then none
  else some (Char.ofNat unit, rest)

def readEscape : List Char → Read Char
  | '"' :: rest => some ('"', rest)
  | '\\' :: rest => some ('\\', rest)
  | '/' :: rest => some ('/', rest)
  | 'b' :: rest => some ('\x08', rest)
  | 'f' :: rest => some ('\x0c', rest)
  | 'n' :: rest => some ('\n', rest)
  | 'r' :: rest => some ('\r', rest)
  | 't' :: rest => some ('\t', rest)
  | 'u' :: rest => readEscapedUnit rest
  | _ => none

/-- The characters of a string up to its closing quote, after those already read. -/
def readStringTail : Nat → List Char → List Char → Read String
  | 0, _, _ => none
  | _ + 1, seen, '"' :: rest => some (String.ofList seen.reverse, rest)
  | fuel + 1, seen, '\\' :: rest =>
    match readEscape rest with
    | some (c, rest) => readStringTail fuel (c :: seen) rest
    | none => none
  | fuel + 1, seen, c :: rest =>
    if c.toNat < 0x20 then none else readStringTail fuel (c :: seen) rest
  | _ + 1, _, [] => none

/-- A whole number where it fits 64 bits, and a double otherwise. -/
def number? (text : List Char) : Option Document :=
  let s := String.ofList text
  let wholeNumber :=
    if s = "-0" then none
    else match Decimal.readSigned64? s with
      | some n => some n
      | none => (Decimal.readUnsigned64? s).map fun n => (n : Int)
  match wholeNumber with
  | some n => some (.integer n)
  | none => (Decimal.RealNumeral.read? s).map fun r => .real r.toFloat

def readNumber (cs : List Char) : Read Document :=
  let inNumber (c : Char) : Bool :=
    c.isDigit || c = '-' || c = '+' || c = '.' || c = 'e' || c = 'E'
  (number? (cs.takeWhile inNumber)).map fun d => (d, cs.dropWhile inNumber)

mutual

def readDocument : Nat → List Char → Read Document
  | 0, _ => none
  | fuel + 1, cs =>
    match skipBlanks cs with
    | 'n' :: 'u' :: 'l' :: 'l' :: rest => some (.null, rest)
    | 't' :: 'r' :: 'u' :: 'e' :: rest => some (.boolean true, rest)
    | 'f' :: 'a' :: 'l' :: 's' :: 'e' :: rest => some (.boolean false, rest)
    | '"' :: rest => (readStringTail fuel [] rest).map fun (s, r) => (.string s, r)
    | '[' :: rest =>
      match skipBlanks rest with
      | ']' :: rest => some (.array [], rest)
      | rest => (readElements fuel [] rest).map fun (ds, r) => (.array ds, r)
    | '\x7b' :: rest =>
      match skipBlanks rest with
      | '\x7d' :: rest => some (.object [], rest)
      | rest => (readMembers fuel [] rest).map fun (ms, r) => (.ofMembers ms, r)
    | rest => readNumber rest

def readElements : Nat → List Document → List Char → Read (List Document)
  | 0, _, _ => none
  | fuel + 1, seen, cs =>
    match readDocument fuel cs with
    | none => none
    | some (d, rest) =>
      match skipBlanks rest with
      | ',' :: rest => readElements fuel (d :: seen) rest
      | ']' :: rest => some ((d :: seen).reverse, rest)
      | _ => none

def readMembers : Nat → List (String × Document) → List Char → Read (List (String × Document))
  | 0, _, _ => none
  | fuel + 1, seen, cs =>
    match skipBlanks cs with
    | '"' :: rest =>
      match readStringTail fuel [] rest with
      | none => none
      | some (name, rest) =>
        match skipBlanks rest with
        | ':' :: rest =>
          match readDocument fuel rest with
          | none => none
          | some (d, rest) =>
            match skipBlanks rest with
            | ',' :: rest => readMembers fuel ((name, d) :: seen) rest
            | '\x7d' :: rest => some (((name, d) :: seen).reverse, rest)
            | _ => none
        | _ => none
    | _ => none

end

/-- The document a text writes, if the whole text is one. -/
def read? (s : String) : Option Document :=
  let cs := s.toList
  match readDocument (2 * cs.length + 2) cs with
  | some (d, rest) => if (skipBlanks rest).isEmpty then some d else none
  | none => none

end SingleTable.Document
