import SingleTable.NameMap
import SingleTable.Text.Quoted

/-!
# Attribute values and items

The values a store keeps.  A number is the text it was written in: `1` and `1.0` are
different values, and a set is the list of its members in the order given.  A store may
answer a value of a kind that this library does not know; such a value can be passed over
but neither shown nor sent back.

A map value lists its fields by increasing name, as a `NameMap` does, so that equal maps
are equal values.
-/

namespace SingleTable

/-- An attribute value. -/
inductive Value where
  | string (text : String)
  /-- A number, as text. -/
  | number (text : String)
  | binary (bytes : List UInt8)
  | boolean (flag : Bool)
  | null (flag : Bool)
  | list (elements : List Value)
  | map (fields : List (String × Value))
  | stringSet (members : List String)
  | numberSet (members : List String)
  | binarySet (members : List (List UInt8))
  /-- A value of another kind, whose content is not kept. -/
  | unknown
  deriving Inhabited

namespace Value

/-! ## Equality -/

mutual

def decEq : (v w : Value) → Decidable (v = w)
  | string a, string b => decidable_of_iff (a = b) (by simp)
  | number a, number b => decidable_of_iff (a = b) (by simp)
  | binary a, binary b => decidable_of_iff (a = b) (by simp)
  | boolean a, boolean b => decidable_of_iff (a = b) (by simp)
  | null a, null b => decidable_of_iff (a = b) (by simp)
  | list a, list b =>
    match decEqList a b with
    | isTrue h => isTrue (by rw [h])
    | isFalse h => isFalse (by simpa using h)
  | map a, map b =>
    match decEqFields a b with
    | isTrue h => isTrue (by rw [h])
    | isFalse h => isFalse (by simpa using h)
  | stringSet a, stringSet b => decidable_of_iff (a = b) (by simp)
  | numberSet a, numberSet b => decidable_of_iff (a = b) (by simp)
  | binarySet a, binarySet b => decidable_of_iff (a = b) (by simp)
  | unknown, unknown => isTrue rfl
  | string _, number _ | string _, binary _ | string _, boolean _ | string _, null _
  | string _, list _ | string _, map _ | string _, stringSet _ | string _, numberSet _
  | string _, binarySet _ | string _, unknown => isFalse (by simp)
  | number _, string _ | number _, binary _ | number _, boolean _ | number _, null _
  | number _, list _ | number _, map _ | number _, stringSet _ | number _, numberSet _
  | number _, binarySet _ | number _, unknown => isFalse (by simp)
  | binary _, string _ | binary _, number _ | binary _, boolean _ | binary _, null _
  | binary _, list _ | binary _, map _ | binary _, stringSet _ | binary _, numberSet _
  | binary _, binarySet _ | binary _, unknown => isFalse (by simp)
  | boolean _, string _ | boolean _, number _ | boolean _, binary _ | boolean _, null _
  | boolean _, list _ | boolean _, map _ | boolean _, stringSet _ | boolean _, numberSet _
  | boolean _, binarySet _ | boolean _, unknown => isFalse (by simp)
  | null _, string _ | null _, number _ | null _, binary _ | null _, boolean _ | null _, list _
  | null _, map _ | null _, stringSet _ | null _, numberSet _ | null _, binarySet _
  | null _, unknown => isFalse (by simp)
  | list _, string _ | list _, number _ | list _, binary _ | list _, boolean _ | list _, null _
  | list _, map _ | list _, stringSet _ | list _, numberSet _ | list _, binarySet _
  | list _, unknown => isFalse (by simp)
  | map _, string _ | map _, number _ | map _, binary _ | map _, boolean _ | map _, null _
  | map _, list _ | map _, stringSet _ | map _, numberSet _ | map _, binarySet _
  | map _, unknown => isFalse (by simp)
  | stringSet _, string _ | stringSet _, number _ | stringSet _, binary _
  | stringSet _, boolean _ | stringSet _, null _ | stringSet _, list _ | stringSet _, map _
  | stringSet _, numberSet _ | stringSet _, binarySet _ | stringSet _, unknown
    => isFalse (by simp)
  | numberSet _, string _ | numberSet _, number _ | numberSet _, binary _
  | numberSet _, boolean _ | numberSet _, null _ | numberSet _, list _ | numberSet _, map _
  | numberSet _, stringSet _ | numberSet _, binarySet _ | numberSet _, unknown
    => isFalse (by simp)
  | binarySet _, string _ | binarySet _, number _ | binarySet _, binary _
  | binarySet _, boolean _ | binarySet _, null _ | binarySet _, list _ | binarySet _, map _
  | binarySet _, stringSet _ | binarySet _, numberSet _ | binarySet _, unknown
    => isFalse (by simp)
  | unknown, string _ | unknown, number _ | unknown, binary _ | unknown, boolean _
  | unknown, null _ | unknown, list _ | unknown, map _ | unknown, stringSet _
  | unknown, numberSet _ | unknown, binarySet _ => isFalse (by simp)

def decEqList : (vs ws : List Value) → Decidable (vs = ws)
  | [], [] => isTrue rfl
  | [], _ :: _ => isFalse (by simp)
  | _ :: _, [] => isFalse (by simp)
  | v :: vs, w :: ws =>
    match decEq v w, decEqList vs ws with
    | isTrue h, isTrue hs => isTrue (by rw [h, hs])
    | isFalse h, _ => isFalse (by simp [h])
    | _, isFalse hs => isFalse (by simp [hs])

def decEqFields : (fs gs : List (String × Value)) → Decidable (fs = gs)
  | [], [] => isTrue rfl
  | [], _ :: _ => isFalse (by simp)
  | _ :: _, [] => isFalse (by simp)
  | (n, v) :: fs, (m, w) :: gs =>
    match decEq v w, decEqFields fs gs with
    | isTrue h, isTrue hs => decidable_of_iff (n = m) (by simp [h, hs])
    | isFalse h, _ => isFalse (by simp [h])
    | _, isFalse hs => isFalse (by simp [hs])

end

instance : DecidableEq Value := decEq

/-! ## Kinds of value -/

/-- A null, which stands for an attribute without a value. -/
def isNull : Value → Bool
  | null _ => true
  | _ => false

/-- A string, number, boolean or binary value: what a key may hold. -/
def isScalar : Value → Bool
  | string _ | number _ | boolean _ | binary _ => true
  | _ => false

/-- The text of a value inside a text template; binary values have none. -/
def keyText? : Value → Option String
  | string text => some text
  | number text => some text
  | boolean true => some "true"
  | boolean false => some "false"
  | _ => none

def string? : Value → Option String
  | string text => some text
  | _ => none

mutual

def isKnown : Value → Bool
  | unknown => false
  | list elements => allKnown elements
  | map fields => allFieldsKnown fields
  | _ => true

def allKnown : List Value → Bool
  | [] => true
  | v :: vs => isKnown v && allKnown vs

def allFieldsKnown : List (String × Value) → Bool
  | [] => true
  | (_, v) :: fields => isKnown v && allFieldsKnown fields

end

/-! ## Description in messages -/

def hexText (bytes : List UInt8) : String :=
  String.ofList
    (bytes.flatMap fun b => [Text.hexDigit (b.toNat / 16), Text.hexDigit (b.toNat % 16)])

def describeBytes (bytes : List UInt8) : String :=
  "Blob \x7b inner: " ++ hexText bytes ++ " \x7d"

def bracketed (texts : List String) : String := "[" ++ ", ".intercalate texts ++ "]"

mutual

/-- A value as a message shows it: its kind and its content. -/
def describe : Value → String
  | string text => "S(" ++ Text.quote text ++ ")"
  | number text => "N(" ++ Text.quote text ++ ")"
  | binary bytes => "B(" ++ describeBytes bytes ++ ")"
  | boolean flag => if flag then "Bool(true)" else "Bool(false)"
  | null flag => if flag then "Null(true)" else "Null(false)"
  | list elements => "L(" ++ bracketed (describeList elements) ++ ")"
  | map fields => "M(\x7b" ++ ", ".intercalate (describeFields fields) ++ "\x7d)"
  | stringSet members => "Ss(" ++ bracketed (members.map Text.quote) ++ ")"
  | numberSet members => "Ns(" ++ bracketed (members.map Text.quote) ++ ")"
  | binarySet members => "Bs(" ++ bracketed (members.map describeBytes) ++ ")"
  | unknown => "Unknown"

def describeList : List Value → List String
  | [] => []
  | v :: vs => describe v :: describeList vs

def describeFields : List (String × Value) → List String
  | [] => []
  | (name, v) :: fields => (Text.quote name ++ ": " ++ describe v) :: describeFields fields

end

end Value

/-- The attributes of something, by name: what a caller hands in, what the store keeps, and
the key of a stored item alike. -/
abbrev Item := NameMap Value

namespace Item

/-- The value of an attribute that has one; a null counts as none. -/
def present? (item : Item) (name : String) : Option Value :=
  (item.get? name).filter (!·.isNull)

def isKnown (item : Item) : Bool := Value.allFieldsKnown item.entries

/-- The item that holds one attribute. -/
def single (name : String) (value : Value) : Item := NameMap.ofList [(name, value)]

end Item

end SingleTable
