import SingleTable.NameMap

/-!
# Documents

Plain documents: the form in which entities enter and leave the library and in which
requests travel.  A document is null, a flag, a number, a text, an array or an object.

Whole numbers that fit 64 bits stay whole; every other number is a double.  An object
lists its members by increasing name.
-/

namespace SingleTable

/-- A plain document. -/
inductive Document where
  | null
  | boolean (flag : Bool)
  | integer (value : Int)
  | real (value : Float)
  | string (text : String)
  | array (elements : List Document)
  | object (members : List (String × Document))
  deriving Inhabited

namespace Document

def ofMembers (members : List (String × Document)) : Document :=
  .object (NameMap.ofList members).entries

def member? (name : String) : Document → Option Document
  | object members => NameMap.findEntry name members
  | _ => none

def string? : Document → Option String
  | string text => some text
  | _ => none

/-- A number of either form as a double. -/
def real? : Document → Option Float
  | integer value => some (Float.ofInt value)
  | real value => some value
  | _ => none

end Document

end SingleTable
