/-!
# Backoff

How long to wait before what the store left unprocessed is sent again.  The wait is drawn
at random below a ceiling that doubles with every attempt up to a maximum.

A duration counts nanoseconds; delays are computed in whole milliseconds, in words of 64 bits.
A product that would not fit stays at the largest word, and no more than 31 doublings count.
-/

namespace SingleTable

/-- A length of time. -/
structure Duration where
  nanoseconds : Nat
  deriving DecidableEq, Repr

namespace Duration

def ofMilliseconds (n : Nat) : Duration := ⟨n * 1000000⟩

def ofMicroseconds (n : Nat) : Duration := ⟨n * 1000⟩

def milliseconds (d : Duration) : Nat := d.nanoseconds / 1000000

def millisecondWord (d : Duration) : UInt64 := .ofNat d.milliseconds

end Duration

/-- When and how often to send again what was left unprocessed. -/
structure RetryPolicy where
  /-- The number of attempts after the first. -/
  maxRetries : Nat := 10
  /-- The ceiling of the first wait. -/
  initialDelay : Duration := .ofMilliseconds 10
  /-- The largest ceiling. -/
  maxDelay : Duration := .ofMilliseconds 5000
  deriving DecidableEq, Repr

namespace RetryPolicy

/-- The product of two words, or the largest word when it does not fit one. -/
def saturatingProduct (a b : UInt64) : UInt64 :=
  .ofNat (min (a.toNat * b.toNat) (UInt64.size - 1))

/-- How often an attempt, counted from zero, doubles the first delay. -/
def doublings (attempt : Nat) : UInt32 := min (.ofNat (min attempt (UInt32.size - 1))) 31

/-- The power of two by which an attempt multiplies the first delay. -/
def factor (attempt : Nat) : UInt64 := 1 <<< (doublings attempt).toUInt64

/-- The ceiling of the wait after an attempt, counted from zero. -/
def ceiling (policy : RetryPolicy) (attempt : Nat) : Duration :=
  let doubled := saturatingProduct policy.initialDelay.millisecondWord (factor attempt)
  .ofMilliseconds (min doubled policy.maxDelay.millisecondWord).toNat

end RetryPolicy

end SingleTable
