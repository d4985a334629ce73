import SingleTable.Document.Reader
import SingleTable.Form.Reading
import SingleTable.Value

/-!
# The form of values

A value is an object with one member, named for the kind of the value.  Members that are
null do not count, nor does `__type`, which only names the type of the object.  A member of
another name is a value of an unknown kind, whatever it holds.

Bytes have a notation of their own, which the place of use decides: hexadecimal digits in
forms, base 64 in requests to the service.
-/

namespace SingleTable

structure ByteNotation where
  write : List UInt8 → String
  read? : List Char → Option (List UInt8)

namespace Form

def readHex : List Char → Option (List UInt8)
  | [] => some []
  | a :: b :: rest => do
    let high ← Document.hexValue? a
    let low ← Document.hexValue? b
    let others ← readHex rest
    some (UInt8.ofNat (16 * high + low) :: others)
  | _ => none

def hexadecimal : ByteNotation := ⟨Value.hexText, readHex⟩

def bytes (codec : ByteNotation) (d : Document) : Reading (List UInt8) := do
  match codec.read? (← text d).toList with
  | some bs => return bs
  | none => throw "bytes are expected"

mutual

def readValue (codec : ByteNotation) : Document → Reading Value
  | .object ms => do
    match ← readKinds codec ms with
    | some v => return v
    | none => throw "a value is expected"
  | _ => .error "a value is expected"

def readKinds (codec : ByteNotation) : List (String × Document) → Reading (Option Value)
  | [] => .ok none
  | (_, .null) :: rest => readKinds codec rest
  | ("__type", _) :: rest => readKinds codec rest
  | (kind, d) :: rest => do
    let v ← readKind codec kind d
    match ← readKinds codec rest with
    | none => return some v
    | some _ => throw "one value is expected"

def readKind (codec : ByteNotation) : String → Document → Reading Value
  | "S", d => .string <$> text d
  | "N", d => .number <$> text d
  | "B", d => .binary <$> bytes codec d
  | "BOOL", d => .boolean <$> flag d
  | "NULL", d => .null <$> flag d
  | "L", .array ds => .list <$> readValues codec ds
  | "L", _ => .error "an array is expected"
  | "M", .object ms => do
    let fields ← readFields codec ms
    return .map (NameMap.ofList fields).entries
  | "M", _ => .error "an object is expected"
  | "SS", d => .stringSet <$> list text d
  | "NS", d => .numberSet <$> list text d
  | "BS", d => .binarySet <$> list (bytes codec) d
  | _, _ => .ok .unknown

def readValues (codec : ByteNotation) : List Document → Reading (List Value)
  | [] => .ok []
  | d :: ds => do
    let first ← readValue codec d
    let rest ← readValues codec ds
    return first :: rest

def readFields (codec : ByteNotation) :
    List (String × Document) → Reading (List (String × Value))
  | [] => .ok []
  | (name, d) :: ds => do
    let first ← readValue codec d
    let rest ← readFields codec ds
    return (name, first) :: rest

end

mutual

def writeValue (codec : ByteNotation) : Value → Document
  | .string s => .object [("S", .string s)]
  | .number s => .object [("N", .string s)]
  | .binary bs => .object [("B", .string (codec.write bs))]
  | .boolean b => .object [("BOOL", .boolean b)]
  | .null b => .object [("NULL", .boolean b)]
  | .list vs => .object [("L", .array (writeValues codec vs))]
  | .map fs => .object [("M", .object (writeFields codec fs))]
  | .stringSet ss => .object [("SS", array .string ss)]
  | .numberSet ss => .object [("NS", array .string ss)]
  | .binarySet bs => .object [("BS", array (fun b => .string (codec.write b)) bs)]
  | .unknown => .object [("UNKNOWN", .boolean true)]

def writeValues (codec : ByteNotation) : List Value → List Document
  | [] => []
  | v :: vs => writeValue codec v :: writeValues codec vs

def writeFields (codec : ByteNotation) : List (String × Value) → List (String × Document)
  | [] => []
  | (name, v) :: fs => (name, writeValue codec v) :: writeFields codec fs

end

def value (d : Document) : Reading Value := readValue hexadecimal d

def item (d : Document) : Reading Item := nameMap value d

def ofValue (v : Value) : Document := writeValue hexadecimal v

def ofItem (i : Item) : Document := ofNameMap ofValue i

end Form

end SingleTable
