import SingleTable.Decimal.Numeral
import SingleTable.Decimal.Shortest
import SingleTable.Document
import SingleTable.Value

/-!
# Values as plain documents

Entities enter the library as values of the caller's types and leave it as such values; inside
they are items.  What is asked of a type is that it is `Storable`.  Plain documents are: every
document has a value, and the way back is partial, for a number must be written in digits, a null
must be flagged as one, and bytes and values of unknown kinds have no plain form.
-/

namespace SingleTable

/-- Why a value of the caller and an item could not be turned into each other. -/
inductive ConversionError where
  /-- An item is wanted and the document is not an object. -/
  | notAnObject
  /-- The text of a number value is not a number. -/
  | notANumber (text : String)
  /-- A binary value has no plain form. -/
  | binaryValue
  /-- A null value is not flagged as one. -/
  | unflaggedNull
  /-- A value is of no known kind. -/
  | unknownKind
  /-- A type of the caller has a reason of its own. -/
  | custom (message : String)
  /-- The pattern of a key template was refused. -/
  | refusedPattern (message : String)
  deriving DecidableEq, Repr

def ConversionError.message : ConversionError → String
  | notAnObject => "Not a map-like object"
  | notANumber text =>
    let cause :=
      if text.isEmpty then "cannot parse float from empty string" else "invalid float literal"
    "Failed to parse '" ++ text ++ "' as a float: " ++ cause
  | binaryValue => "invalid type: byte array, expected any valid JSON value"
  | unflaggedNull => "Expected unit"
  | unknownKind => "unknown attribute value"
  | custom message | refusedPattern message => message

namespace Value

mutual

/-- The value of a document.  A double is written in the fewest digits that read back. -/
def ofDocument : Document → Value
  | .null => .null true
  | .boolean flag => .boolean flag
  | .integer n => .number n.repr
  | .real x => .number (Decimal.plainText x)
  | .string text => .string text
  | .array elements => .list (ofDocuments elements)
  | .object members => .map (ofMembers members)

def ofDocuments : List Document → List Value
  | [] => []
  | d :: ds => ofDocument d :: ofDocuments ds

def ofMembers : List (String × Document) → List (String × Value)
  | [] => []
  | (name, d) :: ds => (name, ofDocument d) :: ofMembers ds

end

/-- The number a text writes: whole if it fits 64 bits, else a double, and null for what
no document can hold. -/
def plainNumber (text : String) : Except ConversionError Document :=
  match Decimal.readSigned64? text with
  | some n => .ok (.integer n)
  | none =>
    match Decimal.readUnsigned64? text with
    | some n => .ok (.integer n)
    | none =>
      match Decimal.RealNumeral.read? text with
      | some r => .ok (if r.toFloat.isFinite then .real r.toFloat else .null)
      | none => .error (.notANumber text)

mutual

def toDocument : Value → Except ConversionError Document
  | string text => .ok (.string text)
  | number text => plainNumber text
  | binary _ => .error .binaryValue
  | boolean flag => .ok (.boolean flag)
  | null flag => if flag then .ok .null else .error .unflaggedNull
  | list elements => (toDocuments elements).map .array
  | map fields => (toMembers fields).map .object
  | stringSet members => .ok (.array (members.map .string))
  | numberSet members => (members.mapM plainNumber).map .array
  | binarySet [] => .ok (.array [])
  | binarySet (_ :: _) => .error .binaryValue
  | unknown => .error .unknownKind

def toDocuments : List Value → Except ConversionError (List Document)
  | [] => .ok []
  | v :: vs => do return (← toDocument v) :: (← toDocuments vs)

def toMembers : List (String × Value) → Except ConversionError (List (String × Document))
  | [] => .ok []
  | (name, v) :: fields => do return (name, ← toDocument v) :: (← toMembers fields)

end

end Value

namespace Item

def ofDocument : Document → Except ConversionError Item
  | .object members => .ok (NameMap.ofList (Value.ofMembers members))
  | _ => .error .notAnObject

def toDocument (item : Item) : Except ConversionError Document :=
  (Value.toMembers item.entries).map .object

end Item

/-- A type whose values are stored as items.  Not every value need have an item, and not every item
is that of a value. -/
class Storable (α : Type) where
  toItem : α → Except ConversionError Item
  ofItem : Item → Except ConversionError α

instance : Storable Document := ⟨Item.ofDocument, Item.toDocument⟩

end SingleTable
