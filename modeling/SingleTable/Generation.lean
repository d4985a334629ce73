import SingleTable.Generation.Base62
import SingleTable.Generation.Timestamp
import SingleTable.Value

/-!
# Generated values

Values the library fills in when it writes.  A strategy is a function of the moment at which
it is asked: the time, and the random bytes drawn then.  So a write is a function of its
input and of the moments handed to it.
-/

namespace SingleTable

/-- The time and the random bytes that one generated value is made from. -/
structure Moment where
  /-- Milliseconds since the start of 1970. -/
  milliseconds : Nat
  /-- The random byte at each position. -/
  random : Nat → UInt8

namespace Moment

def seconds (moment : Moment) : Nat := moment.milliseconds / 1000

def bytes (moment : Moment) (count : Nat) : List UInt8 := (List.range count).map moment.random

end Moment

/-- How a value is generated. -/
inductive Strategy where
  /-- A random id of 128 bits in five groups of hexadecimal digits. -/
  | uuid
  /-- An id whose texts sort by the second they were made in. -/
  | sortableId
  /-- The time in seconds, a number. -/
  | epochSeconds
  /-- The time to the millisecond, a text. -/
  | timestamp
  deriving DecidableEq, Repr

namespace Strategy

/-- Sixteen random bytes as an id: four bits tell the version and two the variant. -/
def uuidText (bytes : List UInt8) : String :=
  let marked := bytes.mapIdx fun i b =>
    if i = 6 then b % 16 + 0x40 else if i = 8 then b % 64 + 0x80 else b
  let digits := Value.hexText
  digits (marked.take 4) ++ "-" ++ digits ((marked.drop 4).take 2) ++ "-"
    ++ digits ((marked.drop 6).take 2) ++ "-" ++ digits ((marked.drop 8).take 2) ++ "-"
    ++ digits (marked.drop 10)

/-- The second from which sortable ids count. -/
def sortableEpoch : Nat := 1400000000

/-- The bytes of a sortable id: four for the second, most significant first, then sixteen
random ones.  Times out of range stay at the nearer end. -/
def sortableBytes (moment : Moment) : Vector UInt8 20 :=
  let since := min (moment.seconds - sortableEpoch) (UInt32.size - 1)
  #v[since >>> 24, since >>> 16, since >>> 8, since].map UInt8.ofNat
    ++ Vector.ofFn fun i : Fin 16 => moment.random i

def generate (strategy : Strategy) (moment : Moment) : Value :=
  match strategy with
  | uuid => .string (uuidText (moment.bytes 16))
  | sortableId => .string (Base62.encode (sortableBytes moment))
  | epochSeconds => .number moment.seconds.repr
  | timestamp => .string (Timestamp.text moment.milliseconds)

end Strategy

end SingleTable
