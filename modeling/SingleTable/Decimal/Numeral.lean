/-!
# Numerals

The number texts the library reads.  Attribute values keep a number as the text it was
given, so reading is only needed where a number leaves the item: as a whole number of 64
bits if the text is one, and as a real number otherwise.

* `readSigned64?` and `readUnsigned64?` read an optional sign and digits.
* `RealNumeral.read?` reads an optional sign, then digits with an optional point and an
  optional exponent, or the name of infinity or of a value that is not a number.
-/

namespace SingleTable.Decimal

def digitValue (c : Char) : Nat := c.toNat - 0x30

/-- The number that a list of decimal digits writes, after digits worth `high`. -/
def digitsValue (high : Nat) (digits : List Char) : Nat :=
  digits.foldl (fun n c => 10 * n + digitValue c) high

/-- A natural number in one or more digits and nothing else. -/
def readDigits? (cs : List Char) : Option Nat :=
  if !cs.isEmpty && cs.all Char.isDigit then some (digitsValue 0 cs) else none

/-- A whole number of 64 bits, with an optional sign of either kind. -/
def readSigned64? (s : String) : Option Int :=
  match s.toList with
  | '-' :: cs =>
    (readDigits? cs).bind fun n => if n ≤ UInt64.size / 2 then some (-(n : Int)) else none
  | '+' :: cs => (readDigits? cs).bind fun n => if n < UInt64.size / 2 then some (n : Int) else none
  | cs => (readDigits? cs).bind fun n => if n < UInt64.size / 2 then some (n : Int) else none

/-- A natural number of 64 bits, with an optional plus sign. -/
def readUnsigned64? (s : String) : Option Nat :=
  let digits := match s.toList with
    | '+' :: cs => cs
    | cs => cs
  (readDigits? digits).bind fun n => if n < UInt64.size then some n else none

/-- A real number as a text writes it. -/
inductive RealNumeral where
  /-- The number `significand * 10 ^ exponent`, negated if asked. -/
  | finite (negative : Bool) (significand : Nat) (exponent : Int)
  | infinite (negative : Bool)
  | notANumber
  deriving DecidableEq, Repr

namespace RealNumeral

def readExponent? : List Char → Option Int
  | '-' :: cs => (readDigits? cs).map fun n => -(n : Int)
  | '+' :: cs => (readDigits? cs).map fun n => (n : Int)
  | cs => (readDigits? cs).map fun n => (n : Int)

/-- Digits with an optional point and exponent; at least one digit stands before or after
the point. -/
def readFinite? (negative : Bool) (cs : List Char) : Option RealNumeral :=
  let whole := cs.takeWhile Char.isDigit
  let (fraction, rest) := match cs.dropWhile Char.isDigit with
    | '.' :: after => (after.takeWhile Char.isDigit, after.dropWhile Char.isDigit)
    | after => ([], after)
  let significand := digitsValue (digitsValue 0 whole) fraction
  let places : Int := fraction.length
  if whole.isEmpty && fraction.isEmpty then none
  else match rest with
    | [] => some (.finite negative significand (-places))
    | c :: exponent =>
      if c = 'e' ∨ c = 'E' then
        (readExponent? exponent).map fun e => .finite negative significand (e - places)
      else none

/-- The part of a real number after its sign. -/
def readUnsigned? (negative : Bool) (cs : List Char) : Option RealNumeral :=
  let name := String.ofList (cs.map Char.toLower)
  if name = "inf" ∨ name = "infinity" then some (.infinite negative)
  else if name = "nan" then some .notANumber
  else readFinite? negative cs

def read? (s : String) : Option RealNumeral :=
  match s.toList with
  | '-' :: cs => readUnsigned? true cs
  | '+' :: cs => readUnsigned? false cs
  | cs => readUnsigned? false cs

/-- The double nearest to the number.  Far outside the range of doubles the place of the
leading digit alone decides. -/
def toFloat : RealNumeral → Float
  | .finite negative significand exponent =>
    let leading : Int := significand.repr.length + exponent
    let magnitude : Float :=
      if significand = 0 ∨ leading < -330 then 0
      else if 310 < leading then 1 / 0
      else Float.ofScientific significand (exponent < 0) exponent.natAbs
    if negative then -magnitude else magnitude
  | .infinite negative => if negative then -1 / 0 else 1 / 0
  | .notANumber => 0 / 0

end RealNumeral

end SingleTable.Decimal
