import SingleTable.Entity.Physical
import SingleTable.Template.Pattern
import SingleTable.Template.Recovery
import SingleTable.Update

/-!
# From items to attributes

Reading undoes what writing added: physical attributes, the marker and hidden attributes are
dropped.  Before that, attributes that the item lacks but that its keys still show are
recovered from the keys, so that an item read through a projection or a narrow index keeps
what it can.  An item cannot be read if the engine refuses the pattern of one of its keys.

An update cannot rewrite the keys from the item, which it does not know.  `affectedIndexes`
derives the changes of the keys from the update itself and from what the caller tells about
the rest of the item.
-/

namespace SingleTable

namespace Entity

/-! ## Reading an item -/

/-- The value of an attribute found in a key, in the declared type.  Attributes that are
hidden or not declared have none. -/
def recoveredValue? (entity : Entity) (name : String) (raw : Value) : Option Value :=
  match entity.attribute? name with
  | none => none
  | some attr =>
    if attr.hidden then none
    else
      match raw with
      | .string text => attr.type.readKeyText? text
      | raw => some raw

/-- Add what a key part shows of attributes that neither the item nor an earlier part
shows. -/
def recoverPart (entity : Entity) (item : Item) (recovered : Item) (part : KeyPart) : Item :=
  match item.get? part.attr with
  | none => recovered
  | some physical =>
    (part.template.recover physical).entries.foldl
      (fun recovered (name, raw) =>
        if item.contains name || recovered.contains name then recovered
        else
          match entity.recoveredValue? name raw with
          | some value => recovered.insert name value
          | none => recovered)
      recovered

/-- What the keys of an item show of attributes that the item lacks. -/
def recovered (entity : Entity) (item : Item) : Item :=
  entity.parts.foldl (entity.recoverPart item) ∅

/-- Whether an attribute is left out of what is read. -/
def isStripped (entity : Entity) (name : String) : Bool :=
  entity.physicalAttributes.contains name || name == entityMarker
    || entity.attributes.any fun attr => attr.hidden && attr.name == name

def toLogical (entity : Entity) (item : Item) : Item :=
  (entity.recovered item).union (item.filter fun name _ => !entity.isStripped name)

/-- Why an item cannot be read: the first pattern of its keys that the engine refuses. -/
def refusal? (entity : Entity) (engine : PatternEngine) (item : Item) : Option String :=
  entity.parts.findSome? fun part =>
    (item.get? part.attr).bind fun physical => part.template.refusal? engine physical

def readAttributes (entity : Entity) (engine : PatternEngine) (item : Item) :
    Except ConversionError Item :=
  match entity.refusal? engine item with
  | some message => .error (.refusedPattern message)
  | none => .ok (entity.toLogical item)

def readValue {α : Type} [Storable α] (entity : Entity) (engine : PatternEngine) (item : Item) :
    Except Error α :=
  ConversionError.lift (entity.readAttributes engine item >>= Storable.ofItem)

/-- The document that an item stores, to an engine that refuses no pattern. -/
def toDocument (entity : Entity) (item : Item) : Except Error Document :=
  entity.readValue .lenient item

end Entity

/-! ## Changes of keys by an update -/

/-- The changes of physical attributes that follow from an update. -/
structure KeyChanges where
  set : List (String × Value) := []
  remove : List String := []
  deriving DecidableEq

namespace KeyChanges

def isEmpty (changes : KeyChanges) : Bool := changes.set.isEmpty && changes.remove.isEmpty

def append (changes other : KeyChanges) : KeyChanges :=
  ⟨changes.set ++ other.set, changes.remove ++ other.remove⟩

end KeyChanges

/-- What an update does to an index. -/
inductive IndexImpact where
  | untouched
  | changed
  | cleared
  deriving DecidableEq, Repr

/-- The stronger of two impacts: a cleared attribute clears the index whatever else changes. -/
def IndexImpact.join : IndexImpact → IndexImpact → IndexImpact
  | cleared, _ | _, cleared => cleared
  | changed, _ | _, changed => changed
  | untouched, untouched => untouched

namespace Entity

def impactOn (entity : Entity) (body : UpdateBody) (sparse : Bool) (part : KeyPart)
    (name : String) : Except Error IndexImpact :=
  match body.get? name with
  | none => .ok .untouched
  | some action =>
    if !((entity.attribute? name).any (·.type.isScalar)) then .ok .untouched
    else if action.clears then
      if sparse then .ok .cleared else .error (.unresolved part.template.display name)
    else if action.literal?.isSome then .ok .changed
    else .error (.dynamicKeyUpdate name part.attr)

def impactOnAll (entity : Entity) (body : UpdateBody) (sparse : Bool) :
    List (KeyPart × String) → Except Error IndexImpact
  | [] => .ok .untouched
  | (part, name) :: rest => do
    let first ← entity.impactOn body sparse part name
    let others ← entity.impactOnAll body sparse rest
    return first.join others

/-- The changes of one index, given the values known after the update.  An index that
changes is derived anew as a whole. -/
def indexChanges (entity : Entity) (body : UpdateBody) (values : Item) (index : IndexLayout) :
    Except Error KeyChanges := do
  let references := index.parts.flatMap fun part => part.names.map fun name => (part, name)
  match ← entity.impactOnAll body index.sparse references with
  | .untouched => return {}
  | .cleared => return { remove := index.parts.map (·.attr) }
  | .changed =>
    match KeyPart.resolveAll .strict values index.parts with
    | .ok set => return { set }
    | .error e => throw e.toError

def allIndexChanges (entity : Entity) (body : UpdateBody) (values : Item) :
    List IndexLayout → Except Error KeyChanges
  | [] => .ok {}
  | index :: rest => do
    let first ← entity.indexChanges body values index
    let others ← entity.allIndexChanges body values rest
    return first.append others

/-- The values known after an update: those the caller tells, and those the update assigns. -/
def knownValues (body : UpdateBody) (context : Item) : Item :=
  body.actions.foldl
    (fun values (path, action) =>
      match action.literal? with
      | some value => values.insert path value
      | none => values)
    context

/-- The changes of index attributes that follow from an update.  `context` tells values of
attributes that the update does not assign. -/
def affectedIndexes (entity : Entity) (body : UpdateBody) (context : Item) :
    Except Error KeyChanges :=
  entity.allIndexChanges body (knownValues body context) entity.indexes

end Entity

/-! ## Items of several entities -/

/-- An item read from a table that several entities share. -/
inductive LogicalItem where
  /-- The attributes of a known entity. -/
  | known (entity : String) (attributes : Item)
  /-- An item of no known entity, as it is stored. -/
  | unknown (item : Item)
  deriving DecidableEq

def LogicalItem.document? : LogicalItem → Except Error (Option Document)
  | known _ attributes => some <$> ConversionError.lift attributes.toDocument
  | unknown _ => .ok none

end SingleTable
