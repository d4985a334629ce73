import Mathlib.Algebra.Group.Nat.Defs
import Mathlib.Order.MinMax
import Mathlib.Order.Monotone.Basic
import SingleTable.Backoff

/-!
# The ceiling of a wait

`exactCeiling` is the first delay doubled once for every attempt before, up to the largest, in
unbounded arithmetic.  The words that compute `ceiling` count whole milliseconds and double at most
31 times; apart from that they lose nothing (`ceiling_eq`), since a product that leaves its word is
above the largest delay anyway.  What the two have in common, and where they differ, follows from
that one equation.
-/

namespace SingleTable

/-! ## Delays in words -/

namespace Duration

variable {d : Duration}

def IsWhole (d : Duration) : Prop := 1000000 ∣ d.nanoseconds

instance (d : Duration) : Decidable d.IsWhole := inferInstanceAs (Decidable (_ ∣ _))

def FitsWord (d : Duration) : Prop := d.milliseconds < UInt64.size

instance (d : Duration) : Decidable d.FitsWord := inferInstanceAs (Decidable (_ < _))

theorem milliseconds_le (d : Duration) : d.milliseconds * 1000000 ≤ d.nanoseconds :=
  Nat.div_mul_le_self _ _

theorem IsWhole.nanoseconds_eq (isWhole : d.IsWhole) : d.nanoseconds = d.milliseconds * 1000000 :=
  (Nat.div_mul_cancel isWhole).symm

theorem isWhole_of_le (isAtMost : d.nanoseconds ≤ d.milliseconds * 1000000) : d.IsWhole :=
  ⟨d.milliseconds, by rw [Nat.mul_comm]; exact le_antisymm isAtMost d.milliseconds_le⟩

theorem toNat_millisecondWord (fits : d.FitsWord) : d.millisecondWord.toNat = d.milliseconds :=
  UInt64.toNat_ofNat_of_lt' fits

/-- A word keeps no more milliseconds than there are. -/
theorem millisecondWord_le (d : Duration) :
    d.millisecondWord.toNat * 1000000 ≤ d.nanoseconds := by
  have word_le : d.millisecondWord.toNat ≤ d.milliseconds := by
    rw [millisecondWord, UInt64.toNat_ofNat']
    exact Nat.mod_le _ _
  exact (Nat.mul_le_mul_right _ word_le).trans d.milliseconds_le

end Duration

namespace RetryPolicy

/-! ## The words of a ceiling -/

theorem toNat_doublings (attempt : Nat) : (doublings attempt).toNat = min attempt 31 := by
  have word : (UInt32.ofNat (min attempt (UInt32.size - 1))).toNat = min attempt (UInt32.size - 1) :=
    UInt32.toNat_ofNat_of_lt' (by simp only [UInt32.size]; omega)
  rw [doublings, UInt32.toNat_min, word]
  simp only [UInt32.size, UInt32.reduceToNat]
  omega

theorem toNat_factor (attempt : Nat) : (factor attempt).toNat = 2 ^ min attempt 31 := by
  have small : 2 ^ min attempt 31 < 2 ^ 64 := Nat.pow_lt_pow_right (by decide) (by omega)
  have shift : (doublings attempt).toUInt64.toNat % 64 = min attempt 31 := by
    rw [UInt32.toNat_toUInt64, toNat_doublings, Nat.mod_eq_of_lt (by omega)]
  rw [factor, UInt64.toNat_shiftLeft, shift, UInt64.toNat_one, Nat.one_shiftLeft,
    Nat.mod_eq_of_lt small]

theorem toNat_saturatingProduct (a b : UInt64) :
    (saturatingProduct a b).toNat = min (a.toNat * b.toNat) (UInt64.size - 1) :=
  UInt64.toNat_ofNat_of_lt' (by simp only [UInt64.size]; omega)

/-- A product that saturates is capped in any case, so no ceiling shows it. -/
theorem ceiling_eq (policy : RetryPolicy) (attempt : Nat) :
    policy.ceiling attempt = .ofMilliseconds
      (min (policy.initialDelay.millisecondWord.toNat * 2 ^ min attempt 31)
        policy.maxDelay.millisecondWord.toNat) := by
  have capped : policy.maxDelay.millisecondWord.toNat ≤ UInt64.size - 1 :=
    Nat.le_sub_one_of_lt (UInt64.toNat_lt_size _)
  rw [ceiling, UInt64.toNat_min, toNat_saturatingProduct, toNat_factor, min_assoc,
    min_eq_right capped]

/-! ## Exact arithmetic -/

/-- The first delay doubled once for every attempt before, up to the largest. -/
def exactCeiling (policy : RetryPolicy) (attempt : Nat) : Duration :=
  ⟨min (policy.initialDelay.nanoseconds * 2 ^ attempt) policy.maxDelay.nanoseconds⟩

/-- Words of 64 bits hold the milliseconds of both delays. -/
structure FitsWords (policy : RetryPolicy) : Prop where
  initialDelay : policy.initialDelay.FitsWord
  maxDelay : policy.maxDelay.FitsWord

variable {policy : RetryPolicy} {attempt : Nat}

theorem pow_doublings_le (attempt : Nat) : 2 ^ min attempt 31 ≤ 2 ^ attempt :=
  Nat.pow_le_pow_right (by decide) (Nat.min_le_left _ _)

theorem monotone_ceiling (policy : RetryPolicy) :
    Monotone fun attempt => (policy.ceiling attempt).nanoseconds := by
  intro earlier later isLater
  have doubled : 2 ^ min earlier 31 ≤ 2 ^ min later 31 :=
    Nat.pow_le_pow_right (by decide) (by omega)
  simp only [ceiling_eq, Duration.ofMilliseconds]
  exact Nat.mul_le_mul_right _ (min_le_min (Nat.mul_le_mul_left _ doubled) le_rfl)

theorem ceiling_le_exactCeiling (policy : RetryPolicy) (attempt : Nat) :
    (policy.ceiling attempt).nanoseconds ≤ (policy.exactCeiling attempt).nanoseconds := by
  simp only [ceiling_eq, Duration.ofMilliseconds, exactCeiling]
  rw [← Nat.mul_min_mul_right, Nat.mul_right_comm]
  exact min_le_min
    (Nat.mul_le_mul policy.initialDelay.millisecondWord_le (pow_doublings_le attempt))
    policy.maxDelay.millisecondWord_le

theorem exactCeiling_le_maxDelay (policy : RetryPolicy) (attempt : Nat) :
    (policy.exactCeiling attempt).nanoseconds ≤ policy.maxDelay.nanoseconds :=
  min_le_right _ _

theorem FitsWords.ceiling_eq (fits : policy.FitsWords) (attempt : Nat) :
    policy.ceiling attempt = .ofMilliseconds
      (min (policy.initialDelay.milliseconds * 2 ^ min attempt 31) policy.maxDelay.milliseconds) := by
  rw [RetryPolicy.ceiling_eq, Duration.toNat_millisecondWord fits.initialDelay,
    Duration.toNat_millisecondWord fits.maxDelay]

/-- The doublings of a delay are all made, and in whole milliseconds. -/
structure DoublesExactly (policy : RetryPolicy) (attempt : Nat) : Prop where
  isWhole : policy.initialDelay.IsWhole
  allDoubled : attempt ≤ 31 ∨ policy.initialDelay.nanoseconds = 0
  below : policy.initialDelay.nanoseconds * 2 ^ attempt ≤ policy.maxDelay.nanoseconds

/-- The largest delay is one of whole milliseconds, and the doublings that are made reach it. -/
structure CapsExactly (policy : RetryPolicy) (attempt : Nat) : Prop where
  isWhole : policy.maxDelay.IsWhole
  reached : policy.maxDelay.milliseconds ≤ policy.initialDelay.milliseconds * 2 ^ min attempt 31

theorem DoublesExactly.ceiling_eq (exact : policy.DoublesExactly attempt) (fits : policy.FitsWords) :
    policy.ceiling attempt = policy.exactCeiling attempt := by
  have doubled : policy.initialDelay.milliseconds * 2 ^ min attempt 31 * 1000000 =
      policy.initialDelay.nanoseconds * 2 ^ attempt := by
    rw [Nat.mul_right_comm, ← exact.isWhole.nanoseconds_eq]
    rcases exact.allDoubled with isEarly | isZero
    · rw [min_eq_left isEarly]
    · rw [isZero, Nat.zero_mul, Nat.zero_mul]
  have below : policy.initialDelay.milliseconds * 2 ^ min attempt 31 ≤ policy.maxDelay.milliseconds :=
    (Nat.le_div_iff_mul_le (by decide)).2 (doubled ▸ exact.below)
  rw [fits.ceiling_eq, min_eq_left below, exactCeiling, min_eq_left exact.below, ← doubled,
    Duration.ofMilliseconds]

theorem CapsExactly.ceiling_eq (exact : policy.CapsExactly attempt) (fits : policy.FitsWords) :
    policy.ceiling attempt = policy.exactCeiling attempt := by
  have reached : policy.maxDelay.nanoseconds ≤ policy.initialDelay.nanoseconds * 2 ^ attempt := calc
    policy.maxDelay.nanoseconds = policy.maxDelay.milliseconds * 1000000 :=
        exact.isWhole.nanoseconds_eq
    _ ≤ policy.initialDelay.milliseconds * 2 ^ min attempt 31 * 1000000 :=
        Nat.mul_le_mul_right _ exact.reached
    _ = policy.initialDelay.milliseconds * 1000000 * 2 ^ min attempt 31 := Nat.mul_right_comm ..
    _ ≤ policy.initialDelay.nanoseconds * 2 ^ attempt :=
        Nat.mul_le_mul policy.initialDelay.milliseconds_le (pow_doublings_le attempt)
  rw [fits.ceiling_eq, min_eq_right exact.reached, exactCeiling, min_eq_right reached,
    Duration.ofMilliseconds, ← exact.isWhole.nanoseconds_eq]

theorem doublesExactly_of_le
    (counted : policy.initialDelay.nanoseconds * 2 ^ attempt ≤
      policy.initialDelay.milliseconds * 2 ^ min attempt 31 * 1000000)
    (below : policy.initialDelay.nanoseconds * 2 ^ attempt ≤ policy.maxDelay.nanoseconds) :
    policy.DoublesExactly attempt := by
  -- a fraction of a millisecond would be missing in the count, and so would a doubling left out
  rw [Nat.mul_right_comm] at counted
  have isWhole : policy.initialDelay.IsWhole := by
    refine Duration.isWhole_of_le (Nat.le_of_mul_le_mul_right ?_ (Nat.two_pow_pos (min attempt 31)))
    exact (Nat.mul_le_mul_left _ (pow_doublings_le attempt)).trans counted
  refine ⟨isWhole, ?_, below⟩
  by_contra isNeither
  obtain ⟨isLate, isPositive⟩ := not_or.1 isNeither
  rw [← isWhole.nanoseconds_eq] at counted
  have isLess : 2 ^ min attempt 31 < 2 ^ attempt := Nat.pow_lt_pow_right (by decide) (by omega)
  exact Nat.not_le_of_lt isLess (Nat.le_of_mul_le_mul_left counted (Nat.pos_of_ne_zero isPositive))

/-- Only whole milliseconds are counted, and only 31 doublings made, so the exact ceiling is met where
neither takes anything away. -/
theorem FitsWords.ceiling_eq_exactCeiling_iff (fits : policy.FitsWords) (attempt : Nat) :
    policy.ceiling attempt = policy.exactCeiling attempt ↔
      policy.DoublesExactly attempt ∨ policy.CapsExactly attempt := by
  refine ⟨fun same => ?_, fun exact => exact.elim (·.ceiling_eq fits) (·.ceiling_eq fits)⟩
  have same : min (policy.initialDelay.milliseconds * 2 ^ min attempt 31)
      policy.maxDelay.milliseconds * 1000000 =
      min (policy.initialDelay.nanoseconds * 2 ^ attempt) policy.maxDelay.nanoseconds := by
    rw [fits.ceiling_eq] at same
    exact congrArg Duration.nanoseconds same
  rcases le_total (policy.initialDelay.nanoseconds * 2 ^ attempt) policy.maxDelay.nanoseconds with
    below | reached
  · rw [min_eq_left below] at same
    exact .inl (doublesExactly_of_le (same ▸ Nat.mul_le_mul_right _ (min_le_left _ _)) below)
  · rw [min_eq_right reached] at same
    have isWhole : policy.maxDelay.IsWhole := Duration.isWhole_of_le <|
      same ▸ Nat.mul_le_mul_right _ (min_le_right _ _)
    rw [isWhole.nanoseconds_eq] at same
    exact .inr ⟨isWhole, min_eq_right_iff.1 (Nat.eq_of_mul_eq_mul_right (by decide) same)⟩

/-- The power of two always fits its word, and the ceiling never falls with the attempts nor exceeds the
exact one or the largest delay.  Where words hold the milliseconds of both delays, it is the first delay
in whole milliseconds, doubled for every attempt before up to 31 times, up to the largest in whole
milliseconds: the exact ceiling, where that takes nothing away. -/
theorem ceiling_doubles_and_caps (policy : RetryPolicy) :
    (∀ attempt, (doublings attempt).toNat < 64 ∧ (factor attempt).toNat = 2 ^ min attempt 31) ∧
    Monotone (fun attempt => (policy.ceiling attempt).nanoseconds) ∧
    (∀ attempt, (policy.ceiling attempt).nanoseconds ≤ (policy.exactCeiling attempt).nanoseconds ∧
      (policy.ceiling attempt).nanoseconds ≤ policy.maxDelay.nanoseconds) ∧
    (policy.FitsWords → ∀ attempt,
      policy.ceiling attempt = .ofMilliseconds
        (min (policy.initialDelay.milliseconds * 2 ^ min attempt 31) policy.maxDelay.milliseconds) ∧
      (policy.ceiling attempt = policy.exactCeiling attempt ↔
        policy.DoublesExactly attempt ∨ policy.CapsExactly attempt)) := by
  refine ⟨fun attempt => ⟨?_, toNat_factor attempt⟩, monotone_ceiling policy, fun attempt => ?_,
    fun fits attempt => ⟨fits.ceiling_eq attempt, fits.ceiling_eq_exactCeiling_iff attempt⟩⟩
  · rw [toNat_doublings]
    omega
  · have isAtMost := ceiling_le_exactCeiling policy attempt
    exact ⟨isAtMost, isAtMost.trans (exactCeiling_le_maxDelay policy attempt)⟩

/-- The defaults: ten milliseconds doubled up to five seconds, which the ninth doubling passes. -/
theorem ceiling_default :
    ({} : RetryPolicy).FitsWords ∧ ({} : RetryPolicy).ceiling 8 = .ofMilliseconds 2560 ∧
      ({} : RetryPolicy).ceiling 9 = ({} : RetryPolicy).exactCeiling 9 := by
  have fits : ({} : RetryPolicy).FitsWords := ⟨by decide, by decide⟩
  have spread := (ceiling_doubles_and_caps {}).2.2.2 fits
  exact ⟨fits, (spread 8).1.trans (by decide), (spread 9).2.2 (.inr ⟨by decide, by decide⟩)⟩

def halfMillisecond : RetryPolicy := { initialDelay := .ofMicroseconds 500 }

/-- A largest delay that takes more than 31 doublings to reach. -/
def patient : RetryPolicy :=
  { initialDelay := .ofMilliseconds 1, maxDelay := .ofMilliseconds (1 <<< 40) }

/-- A largest delay of one millisecond more than a word of 64 bits holds. -/
def endless : RetryPolicy := { maxDelay := .ofMilliseconds UInt64.size }

/-- Half a millisecond counts as none however often it is doubled, no delay is doubled more than 31 times,
and what a word does not hold is cut off. -/
theorem ceiling_below_exactCeiling :
    halfMillisecond.ceiling 4 = .ofMilliseconds 0 ∧
      halfMillisecond.exactCeiling 4 = .ofMilliseconds 8 ∧
      patient.ceiling 40 = .ofMilliseconds (1 <<< 31) ∧
      patient.exactCeiling 40 = .ofMilliseconds (1 <<< 40) ∧
      endless.ceiling 0 = .ofMilliseconds 0 ∧
      endless.exactCeiling 0 = .ofMilliseconds 10 := by
  decide +kernel

end RetryPolicy

end SingleTable
