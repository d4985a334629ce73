import SingleTable.AttributeType
import SingleTable.Table
import SingleTable.Value.Plain

/-!
# Errors

Every way in which an operation can fail, as a cause with its data.  The wording of all of
them is in one place, `Error.message`; callers that only need to react look at the
predicates below it.
-/

namespace SingleTable

/-- An error that the service answered: the name of the exception and its message.  An
exception the operation does not know is reported by its code alone. -/
inductive ServiceFault where
  | known (exception : String) (message : Option String)
  | unknown (code : Option String)
  deriving DecidableEq, Repr

def ServiceFault.message : ServiceFault → String
  | known exception none => exception
  | known exception (some message) => exception ++ ": " ++ message
  | unknown none => "unhandled error"
  | unknown (some code) => "unhandled error (" ++ code ++ ")"

/-- The key whose templates do not fit the table. -/
inductive KeyRole where
  | primary
  | unique (attr : String)
  deriving DecidableEq, Repr

def KeyRole.text : KeyRole → String
  | primary => "primary key"
  | unique attr => "unique key of \"" ++ attr ++ "\""

/-- How the templates of a key or index miss the shape that the table asks for. -/
inductive ShapeMismatch where
  | sortKeyMissing (key : KeyRole) (table : String)
  | sortKeyUnexpected (key : KeyRole) (table : String)
  | partitionKeyMissing (index : String)
  | partitionKeyUnexpected (index : String)
  deriving DecidableEq, Repr

def ShapeMismatch.message : ShapeMismatch → String
  | sortKeyMissing key table =>
    key.text ++ " has no sort key but table \"" ++ table ++ "\" requires one"
  | sortKeyUnexpected key table =>
    key.text ++ " declares a sort key but table \"" ++ table ++ "\" has none"
  | partitionKeyMissing index =>
    "global index \"" ++ index ++ "\" requires a partition key template"
  | partitionKeyUnexpected index =>
    "local index \"" ++ index ++ "\" shares the table partition key and can not declare one"

/-- Two different things asked for under one placeholder. -/
inductive Clash where
  | names (bound requested : String)
  | values (bound requested : Value)
  deriving DecidableEq

def Clash.message : Clash → String
  | names bound requested =>
    "already bound to " ++ Text.quote bound ++ ", requested " ++ Text.quote requested
  | values bound requested =>
    "already bound to " ++ bound.describe ++ ", requested " ++ requested.describe

/-- The operators that take a list of values. -/
inductive RangeOperator where
  | between
  | inList
  deriving DecidableEq, Repr

def RangeOperator.text : RangeOperator → String
  | between => "BETWEEN"
  | inList => "IN"

/-- How many values a range operator takes. -/
def RangeOperator.arity : RangeOperator → String
  | between => "exactly 2"
  | inList => "at least 1"

/-- What became of one operation of a cancelled transaction. -/
structure CancelledOperation where
  /-- The position of the operation in the transaction. -/
  index : Nat
  /-- The code the store gave; an operation that did not fail has none or `None`. -/
  code : Option String
  message : Option String
  /-- The operation as a message shows it. -/
  operation : String
  deriving DecidableEq, Repr

namespace CancelledOperation

def isNone (reason : CancelledOperation) : Bool :=
  reason.code = none || reason.code = some "None"

def text (reason : CancelledOperation) : String :=
  let head := "[" ++ reason.index.repr ++ "] " ++ reason.operation ++ ": "
    ++ reason.code.getD "None"
  match reason.message with
  | some message => head ++ " (" ++ message ++ ")"
  | none => head

end CancelledOperation

/-- Why an operation failed. -/
inductive Error where
  | conversion (cause : ConversionError)
  | service (fault : ServiceFault)
  /-- A request lacks a part that the service requires. -/
  | requestConstruction
  | duplicateEntity (name : String)
  | missingTable (entity : String)
  | keyShape (entity : String) (mismatch : ShapeMismatch)
  | unknownAttribute (entity key attr : String)
  | keyAttributeType (entity key attr : String) (type : AttributeType)
  | unknownIndex (index table : String)
  | indexKindMismatch (entity index : String) (declared expected : IndexKind)
  | duplicateBinding (placeholder : String) (clash : Clash)
  | emptyUpdate
  | rangeArity (operator : RangeOperator) (attr : String) (actual : Nat)
  | valueInProjection (attr : String)
  | unresolved (template attr : String)
  | keyValue (attr : String)
  /-- An attribute that a key is built from was given something else than a plain value. -/
  | dynamicKeyUpdate (attr key : String)
  | primaryKeyUpdate (entity attr : String)
  | missingUnique (entity attr : String)
  | entityNotRegistered (entity : String)
  | sortKeyNotSupported (source : String)
  | indexNotDeclared (index entity : String)
  | entityNotFound (entity : String)
  | transactionTooLarge (requested generated limit : Nat)
  | transactionCancelled (reasons : List CancelledOperation)
  deriving DecidableEq

namespace Error

def message : Error → String
  | conversion (.refusedPattern cause) => "invalid key template pattern: " ++ cause
  | conversion cause => "DynamoDB serialization error: " ++ cause.message
  | service fault => "DynamoDB operation error: " ++ fault.message
  | requestConstruction =>
    "DynamoDB request builder error: error during request construction"
  | duplicateEntity name => "entity name \"" ++ name ++ "\" is already registered"
  | missingTable entity =>
    "entity \"" ++ entity
      ++ "\" has no table, set one on the entity or as connection default"
  | keyShape entity mismatch => "entity \"" ++ entity ++ "\": " ++ mismatch.message
  | unknownAttribute entity key attr =>
    "entity \"" ++ entity ++ "\": key \"" ++ key ++ "\" references unknown attribute \""
      ++ attr ++ "\""
  | keyAttributeType entity key attr type =>
    "entity \"" ++ entity ++ "\": attribute \"" ++ attr ++ "\" of type " ++ type.text
      ++ " can not be used in key \"" ++ key ++ "\""
  | unknownIndex index table =>
    "no such index \"" ++ index ++ "\" found on table \"" ++ table ++ "\""
  | indexKindMismatch entity index declared expected =>
    "entity \"" ++ entity ++ "\": index \"" ++ index ++ "\" is declared as " ++ declared.text
      ++ " but table defines " ++ expected.text
  | duplicateBinding placeholder clash =>
    "duplicate expression binding for \"" ++ placeholder ++ "\": " ++ clash.message
  | emptyUpdate => "update body must change at least one attribute"
  | rangeArity operator attr actual =>
    "operator " ++ operator.text ++ " on \"" ++ attr ++ "\" expects " ++ operator.arity
      ++ " values, got " ++ actual.repr
  | valueInProjection attr =>
    "projection expressions do not support values (\"" ++ attr ++ "\")"
  | unresolved template attr =>
    "unable to resolve \"" ++ template ++ "\": attribute \"" ++ attr
      ++ "\" has no value"
  | keyValue attr =>
    "attribute \"" ++ attr
      ++ "\" can not be interpolated into a key, value is not a string, number or boolean"
  | dynamicKeyUpdate attr key =>
    "attribute \"" ++ attr ++ "\" is referenced by index key \"" ++ key
      ++ "\" and can only be updated with a literal value"
  | primaryKeyUpdate entity attr =>
    "attribute \"" ++ attr ++ "\" is part of the primary key of \"" ++ entity
      ++ "\" and can not be updated"
  | missingUnique entity attr =>
    "all unique attributes are required, \"" ++ attr ++ "\" is missing on \"" ++ entity
      ++ "\""
  | entityNotRegistered entity =>
    "entity \"" ++ entity ++ "\" is not registered with this connection"
  | sortKeyNotSupported source =>
    "sort key condition is not supported, \"" ++ source ++ "\" has no sort key"
  | indexNotDeclared index entity =>
    "index \"" ++ index ++ "\" is not declared on entity \"" ++ entity ++ "\""
  | entityNotFound entity => "entity \"" ++ entity ++ "\" not found"
  | transactionTooLarge requested generated limit =>
    "write transaction has " ++ generated.repr ++ " items (from " ++ requested.repr
      ++ " requested), limit is " ++ limit.repr
  | transactionCancelled reasons =>
    "transaction cancelled: "
      ++ ", ".intercalate ((reasons.filter (!·.isNone)).map (·.text))

/-! ## Predicates -/

def isConditionalCheckFailed : Error → Bool
  | service (.known exception _) => exception == "ConditionalCheckFailedException"
  | transactionCancelled reasons =>
    reasons.any fun reason => reason.code == some "ConditionalCheckFailed"
  | _ => false

def isService : Error → Bool
  | service _ | requestConstruction => true
  | _ => false

/-- Whether the error was raised while laying out entities on their tables. -/
def isSchema : Error → Bool
  | duplicateEntity _ | missingTable _ | keyShape _ _ | unknownAttribute _ _ _
  | keyAttributeType _ _ _ _ | unknownIndex _ _ | indexKindMismatch _ _ _ _ => true
  | _ => false

/-- Whether a value of the caller and an item could not be turned into each other. -/
def isConversion : Error → Bool
  | conversion (.refusedPattern _) => false
  | conversion _ => true
  | _ => false

def isTransactionCancelled : Error → Bool
  | transactionCancelled _ => true
  | _ => false

end Error

instance : Coe ConversionError Error := ⟨.conversion⟩

def ConversionError.lift {α : Type} (result : Except ConversionError α) : Except Error α :=
  result.mapError .conversion

end SingleTable
