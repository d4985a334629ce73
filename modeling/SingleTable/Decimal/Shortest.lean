/-!
# The shortest decimal that reads back

A double stands for an interval of real numbers: all that round to it.  The text of a
double is the decimal with the fewest digits inside that interval, and of two such
decimals the one nearer to the double itself.

A positive double is `m * 2 ^ q` with whole `m` and `q`, and its interval reaches half way
to its neighbours; the ends belong to it when `m` is even.  All comparisons are made on
whole numbers, so nothing is lost to rounding.
-/

namespace SingleTable

/-- A decimal number `digits * 10 ^ exponent`. -/
structure Decimal where
  digits : Nat
  exponent : Int
  deriving DecidableEq, Repr

namespace Decimal

/-- A positive double `m * 2 ^ q`; `narrow` marks the doubles whose neighbour below is only
half as far away as the one above. -/
structure Binary where
  m : Nat
  q : Int
  narrow : Bool
  deriving DecidableEq, Repr

namespace Binary

/-- The leading bit of a significand, which the bits of a double leave out. -/
def hidden : Nat := 1 <<< 52

/-- The magnitude of a finite double, from its bits. -/
def ofFloat (x : Float) : Binary :=
  let bits : Nat := x.toBits.toNat
  let fraction : Nat := bits % hidden
  let biased : Nat := bits / hidden % 2048
  if biased = 0 then ⟨fraction, -1074, false⟩
  else ⟨hidden + fraction, biased - 1075, fraction = 0 ∧ 1 < biased⟩

/-- The two factors that bring `a * 10 ^ k` and `b * 2 ^ q` to whole numbers of one unit. -/
def scales (k q : Int) : Nat × Nat :=
  (Nat.pow 10 k.toNat <<< (-q).toNat, Nat.pow 10 (-k).toNat <<< q.toNat)

/-- Whether a decimal lies in the interval of the double. -/
def rounds (x : Binary) (d : Decimal) : Bool :=
  let (decimalScale, binaryScale) := scales d.exponent (x.q - 2)
  let point := d.digits * decimalScale
  let low := (4 * x.m - (if x.narrow then 1 else 2)) * binaryScale
  let high := (4 * x.m + 2) * binaryScale
  if x.m % 2 = 0 then low ≤ point && point ≤ high else low < point && point < high

def fractionAt (x : Binary) (k : Int) : Nat × Nat :=
  let (decimalScale, binaryScale) := scales k x.q
  (x.m * binaryScale, decimalScale)

/-- The decimal on the grid `10 ^ k` that is in the interval and nearest to the double; of two
equally near, the larger. -/
def nearestOn? (x : Binary) (k : Int) : Option Decimal :=
  let (num, den) := x.fractionAt k
  let below : Decimal := ⟨num / den, k⟩
  let above : Decimal := ⟨num / den + 1, k⟩
  match x.rounds below, x.rounds above with
  | true, true => some (if 2 * (num % den) < den then below else above)
  | true, false => some below
  | false, true => some above
  | false, false => none

/-- The exponent of the leading digit: the largest `e` with `10 ^ e` at most the double. -/
def leading (x : Binary) : Int :=
  let whole := x.fractionAt 0
  if whole.2 ≤ whole.1 then
    ((whole.1 / whole.2).repr.length : Int) - 1
  else
    -- no double below one is a power of ten, so the inverse has exactly this many digits
    -((whole.2 / whole.1).repr.length : Int)

/-- The shortest decimal in the interval.  Seventeen digits always suffice.  A double just
below a power of ten can be shortened to that power, which the grid writes with a zero. -/
def shortest (x : Binary) : Decimal :=
  let top := x.leading
  let found := ((List.range 17).findSome? fun (n : Nat) => x.nearestOn? (top - n)).getD ⟨0, 0⟩
  if found.digits % 10 = 0 then ⟨found.digits / 10, found.exponent + 1⟩ else found

end Binary

/-- A decimal without exponent: zeros pad it to the left or right of the point. -/
def positional (d : Decimal) : List Char :=
  let digits := d.digits.repr.toList
  if 0 ≤ d.exponent then digits ++ List.replicate d.exponent.toNat '0'
  else
    let places := (-d.exponent).toNat
    let padded := List.replicate (places + 1 - digits.length) '0' ++ digits
    padded.take (padded.length - places) ++ '.' :: padded.drop (padded.length - places)

/-- A double in the fewest digits that read back, without exponent; whole numbers carry no
point.  Infinity and values that are not numbers have names. -/
def plainText (x : Float) : String :=
  if x.isNaN then "NaN"
  else
    let sign := if UInt64.size / 2 ≤ x.toBits.toNat then ['-'] else []
    if x.isInf then String.ofList (sign ++ "inf".toList)
    else
      let magnitude := Binary.ofFloat x
      if magnitude.m = 0 then String.ofList (sign ++ ['0'])
      else String.ofList (sign ++ magnitude.shortest.positional)

end Decimal

end SingleTable
