import SingleTable.Decimal.Numeral
import SingleTable.Value

/-!
# Attribute types

The declared type of an attribute decides whether a key may be built from it and how its
value is recovered from the text of a key.
-/

namespace SingleTable

/-- The declared type of an attribute.  An enumeration is stored as a string. -/
inductive AttributeType where
  | string
  | number
  | boolean
  | binary
  | enumeration
  | list
  | map
  | stringSet
  | numberSet
  | binarySet
  deriving DecidableEq, Repr

namespace AttributeType

def text : AttributeType → String
  | string => "String"
  | number => "Number"
  | boolean => "Boolean"
  | binary => "Binary"
  | enumeration => "Enum"
  | list => "List"
  | map => "Map"
  | stringSet => "StringSet"
  | numberSet => "NumberSet"
  | binarySet => "BinarySet"

/-- Types whose values have a text, so that a text template may name them. -/
def isTemplateScalar : AttributeType → Bool
  | string | number | boolean | enumeration => true
  | _ => false

/-- Types whose values may be a key attribute as they are. -/
def isScalar (type : AttributeType) : Bool := type.isTemplateScalar || type == binary

def readKeyText? (type : AttributeType) (text : String) : Option Value :=
  match type with
  | string | enumeration => some (.string text)
  | number => (Decimal.RealNumeral.read? text).map fun _ => .number text
  | boolean =>
    if text = "true" then some (.boolean true)
    else if text = "false" then some (.boolean false)
    else none
  | _ => none

end AttributeType

end SingleTable
