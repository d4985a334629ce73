import SingleTable.Document

/-!
# Reading forms

The forms in this folder are the notation in which declarations, conditions, requests and
their options are written as documents.  This module holds what the readers of all forms
share.  In a form a member that is null means the same as a member that is not there.
-/

namespace SingleTable.Form

/-- What a reader returns: the thing, or what is wrong with its form. -/
abbrev Reading (α : Type) := Except String α

def member? (d : Document) (name : String) : Option Document :=
  match d.member? name with
  | some .null => none
  | other => other

def member (d : Document) (name : String) : Reading Document :=
  match member? d name with
  | some v => .ok v
  | none => .error ("missing member " ++ name)

def text : Document → Reading String
  | .string s => .ok s
  | _ => .error "a text is expected"

def integer : Document → Reading Int
  | .integer n => .ok n
  | _ => .error "a whole number is expected"

def natural : Document → Reading Nat
  | .integer n => if 0 ≤ n then .ok n.toNat else .error "a natural number is expected"
  | _ => .error "a natural number is expected"

def real (d : Document) : Reading Float :=
  match d.real? with
  | some x => .ok x
  | none => .error "a number is expected"

def flag : Document → Reading Bool
  | .boolean b => .ok b
  | _ => .error "a flag is expected"

def elements : Document → Reading (List Document)
  | .array ds => .ok ds
  | _ => .error "an array is expected"

def members : Document → Reading (List (String × Document))
  | .object ms => .ok ms
  | _ => .error "an object is expected"

def pair {α β : Type} (first : Document → Reading α) (second : Document → Reading β) :
    Document → Reading (α × β)
  | .array [a, b] => do return (← first a, ← second b)
  | _ => .error "an array of two is expected"

def list {α : Type} (read : Document → Reading α) (d : Document) : Reading (List α) := do
  (← elements d).mapM read

/-- An object whose members have one form. -/
def nameMap {α : Type} (read : Document → Reading α) (d : Document) : Reading (NameMap α) := do
  let entries ← (← members d).mapM fun (name, v) => do return (name, ← read v)
  return NameMap.ofList entries

def field? {α : Type} (d : Document) (name : String) (read : Document → Reading α) :
    Reading (Option α) :=
  match member? d name with
  | none => .ok none
  | some v => some <$> read v

def fieldD {α : Type} (d : Document) (name : String) (read : Document → Reading α)
    (default : α) : Reading α :=
  match member? d name with
  | none => .ok default
  | some v => read v

/-! ## Writing -/

def object (ms : List (String × Document)) : Document := .ofMembers ms

def array {α : Type} (write : α → Document) (xs : List α) : Document := .array (xs.map write)

/-- A thing that may be missing; null stands for none. -/
def option {α : Type} (write : α → Document) : Option α → Document
  | none => .null
  | some x => write x

def count (n : Nat) : Document := .integer n

/-- An object whose members have one form. -/
def ofNameMap {α : Type} (write : α → Document) (m : NameMap α) : Document :=
  .object (m.entries.map fun (name, v) => (name, write v))

/-- A map that is left out when it is empty. -/
def ofNonempty {α : Type} (write : α → Document) (m : NameMap α) : Document :=
  option (ofNameMap write) m.nonempty?

end SingleTable.Form
