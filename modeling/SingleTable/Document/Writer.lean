import SingleTable.Decimal.Shortest
import SingleTable.Document
import SingleTable.Text.Quoted

/-!
# Writing documents

The compact text of a document: no blanks, members by name, and only the characters
escaped that the format does not allow inside a string.  A double is written so that it
reads back as the same double and not as a whole number.
-/

namespace SingleTable.Document

def writeChar (c : Char) : List Char :=
  match c with
  | '"' => ['\\', '"']
  | '\\' => ['\\', '\\']
  | '\n' => ['\\', 'n']
  | '\r' => ['\\', 'r']
  | '\t' => ['\\', 't']
  | '\x08' => ['\\', 'b']
  | '\x0c' => ['\\', 'f']
  | c =>
    if c.toNat < 0x20 then
      ['\\', 'u', '0', '0', Text.hexDigit (c.toNat / 16), Text.hexDigit (c.toNat % 16)]
    else [c]

def writeString (s : String) : String :=
  String.ofList ('"' :: s.toList.flatMap writeChar ++ ['"'])

/-- A double in its written form; there is none for infinity, which becomes null. -/
def writeReal (x : Float) : String :=
  if x.isFinite then
    let text := Decimal.plainText x
    if text.toList.contains '.' then text else text ++ ".0"
  else "null"

mutual

def write : Document → String
  | null => "null"
  | boolean flag => if flag then "true" else "false"
  | integer value => value.repr
  | real value => writeReal value
  | string text => writeString text
  | array elements => "[" ++ ",".intercalate (writeElements elements) ++ "]"
  | object members => "\x7b" ++ ",".intercalate (writeMembers members) ++ "\x7d"

def writeElements : List Document → List String
  | [] => []
  | d :: ds => write d :: writeElements ds

def writeMembers : List (String × Document) → List String
  | [] => []
  | (name, d) :: ds => (writeString name ++ ":" ++ write d) :: writeMembers ds

end

end SingleTable.Document
