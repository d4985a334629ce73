/-!
# Base 62

Sortable ids are twenty bytes written as twenty-seven digits of base 62, most significant
first.  The digits come in the order of their characters, so ids of equal length sort as
texts exactly as their bytes sort as numbers.

The bytes are divided by 62 until nothing is left, each division going from the most
significant byte to the least in words of 32 bits, and each quotient losing its leading zeros.
-/

namespace SingleTable.Base62

def alphabet : List Char :=
  "0123456789ABCDEFGHIJKLMNOPQRSTUVWXYZabcdefghijklmnopqrstuvwxyz".toList

def width : Nat := 27

def digit (value : UInt32) : Char := alphabet.getD value.toNat '0'

/-- Divide a number in base 256 by 62, after a remainder: the quotient in base 256 and the
remainder. -/
def divide : UInt32 → List UInt32 → List UInt32 × UInt32
  | remainder, [] => ([], remainder)
  | remainder, d :: rest =>
    let accumulated := remainder * 256 + d
    let (quotient, last) := divide (accumulated % 62) rest
    (accumulated / 62 :: quotient, last)

/-- What is left of a number after a division, without leading zeros. -/
def next (number : List UInt32) : List UInt32 := (divide 0 number).1.dropWhile (· == 0)

/-! ## The value of a number -/

/-- A number that goes on with digits in base 256. -/
def extend (n : Nat) (number : List UInt32) : Nat := number.foldl (fun n d => n * 256 + d.toNat) n

/-- The number that digits in base 256 stand for, most significant first. -/
def value (number : List UInt32) : Nat := extend 0 number

@[simp] theorem extend_nil (n : Nat) : extend n [] = n := rfl

@[simp] theorem extend_cons (n : Nat) (d : UInt32) (rest : List UInt32) :
    extend n (d :: rest) = extend (n * 256 + d.toNat) rest := rfl

/-- Along a division, `n` is what has been divided and `quotient` what came of it.  A word that wraps
around only takes away. -/
theorem extend_divide_le {n quotient : Nat} {remainder : UInt32}
    (divided : 62 * quotient + remainder.toNat ≤ n) (number : List UInt32) :
    62 * extend quotient (divide remainder number).1 ≤ extend n number := by
  induction number generalizing n quotient remainder with
  | nil => exact Nat.le_trans (Nat.le_add_right _ _) divided
  | cons d rest inductionHypothesis =>
    refine inductionHypothesis ?_
    simp only [UInt32.toNat_add, UInt32.toNat_mul, UInt32.toNat_div, UInt32.toNat_mod,
      UInt32.reduceToNat]
    omega

theorem value_dropWhile (number : List UInt32) : value (number.dropWhile (· == 0)) = value number := by
  induction number with
  | nil => rfl
  | cons d rest inductionHypothesis =>
    rw [List.dropWhile_cons]
    split
    · next isZero =>
      rw [inductionHypothesis, eq_of_beq isZero]
      rfl
    · rfl

theorem extend_pos_iff {n : Nat} {number : List UInt32} :
    0 < extend n number ↔ 0 < n ∨ number.any (· != 0) := by
  induction number generalizing n with
  | nil => simp
  | cons d rest inductionHypothesis =>
    have isZero_iff : d = 0 ↔ d.toNat = 0 := UInt32.toNat_inj.symm
    rw [extend_cons, inductionHypothesis, List.any_cons, Bool.or_eq_true, bne_iff_ne, Ne, isZero_iff,
      ← or_assoc]
    refine or_congr_left ?_
    omega

theorem value_pos_iff {number : List UInt32} : 0 < value number ↔ number.any (· != 0) := by
  simp [value, extend_pos_iff]

theorem value_next_lt {number : List UInt32} (isLeft : number.any (· != 0)) :
    value (next number) < value number := by
  have smaller : 62 * value (divide 0 number).1 ≤ value number := extend_divide_le (by decide) number
  have positive := value_pos_iff.2 isLeft
  rw [next, value_dropWhile]
  omega

/-! ## Encoding -/

/-- The digits of a number in base 62, least significant first; zero has none. -/
def digits (number : List UInt32) : List Char :=
  if number.any (· != 0) then digit (divide 0 number).2 :: digits (next number) else []
termination_by value number
decreasing_by exact value_next_lt ‹_›

def encode (bytes : Vector UInt8 20) : String :=
  String.ofList ((digits (bytes.toList.map (·.toUInt32))).reverse.leftpad width '0')

end SingleTable.Base62
