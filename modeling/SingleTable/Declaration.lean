import SingleTable.Generation
import SingleTable.Template

/-!
# Declarations

What an entity declares about itself: its attributes, and templates for the key, the
indexes and the uniqueness records.  A declaration says nothing about where the derived
values go; that is decided when it meets its table.
-/

namespace SingleTable

/-- The templates of a partition key and, on a composite table, of a sort key. -/
structure KeyTemplates where
  partition : Template
  sort : Option Template
  deriving DecidableEq, Repr

structure IndexTemplates where
  kind : IndexKind
  partition : Option Template
  sort : Template
  /-- Whether the index may be left out; the table decides when not given. -/
  sparse : Option Bool
  deriving DecidableEq, Repr

/-- How the key of a uniqueness record is derived. -/
inductive UniqueRule where
  /-- From the names of the entity and the attribute. -/
  | derived
  | explicit (key : KeyTemplates)
  deriving DecidableEq, Repr

/-- The value of an attribute that a caller leaves out. -/
inductive DefaultRule where
  | constant (value : Value)
  /-- Computed from the attributes known so far. -/
  | computed (rule : Item → Option Value)

def DefaultRule.resolve (attributes : Item) : DefaultRule → Option Value
  | constant value => some value
  | computed rule => rule attributes

/-- A value made by the library. -/
structure GeneratedRule where
  strategy : Strategy
  /-- Whether every update makes a new value. -/
  onUpdate : Bool
  deriving DecidableEq, Repr

structure Attribute where
  name : String
  type : AttributeType
  unique : Option UniqueRule := none
  default : Option DefaultRule := none
  /-- Whether the attribute is left out of what is read. -/
  hidden : Bool := false
  generated : Option GeneratedRule := none

structure Declaration where
  name : String
  /-- The table of the entity, if it is not the default one. -/
  table : Option Table := none
  key : KeyTemplates
  /-- Index templates by index name, in order of declaration. -/
  indexes : List (String × IndexTemplates) := []
  /-- Attributes, those of ancestors first. -/
  attributes : List Attribute := []

namespace Declaration

/-- Declare templates for an index, forgetting earlier ones for it. -/
def withIndex (declaration : Declaration) (name : String) (templates : IndexTemplates) :
    Declaration :=
  { declaration with
    indexes := declaration.indexes.filter (·.1 ≠ name) ++ [(name, templates)] }

/-- Put an attribute in the place of one of its name, or at the end. -/
def placeAttribute (attr : Attribute) : List Attribute → List Attribute
  | [] => [attr]
  | a :: rest => if a.name = attr.name then attr :: rest else a :: placeAttribute attr rest

def placeAttributes (attributes added : List Attribute) : List Attribute :=
  added.foldl (fun attributes attr => placeAttribute attr attributes) attributes

/-- Declare an attribute; it replaces an earlier one of its name in its place. -/
def withAttribute (declaration : Declaration) (attr : Attribute) : Declaration :=
  { declaration with attributes := placeAttribute attr declaration.attributes }

/-- Inherit the attributes of an ancestor.  They come first, but an attribute declared here
already wins over one inherited. -/
def inherit (declaration : Declaration) (inherited : List Attribute) : Declaration :=
  { declaration with
    attributes := placeAttributes (placeAttributes [] inherited) declaration.attributes }

def attribute? (declaration : Declaration) (name : String) : Option Attribute :=
  declaration.attributes.find? (·.name = name)

end Declaration

end SingleTable
