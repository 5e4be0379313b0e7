import Mathlib.Algebra.Order.Ring.Defs
import Mathlib.Algebra.Order.Ring.Int
import Mathlib.Tactic.Common

/-!
# Doubling under a limit

A value that is doubled again and again, and never exceeds a limit, is a power of two times the
first one until it reaches the limit, and the limit from there on (`capped_succ`). A 64-bit number
is doubled as long as it is below `2 ^ 62`; from there on its double is negative.

## Main definitions

* `capped`.

## Main results

* `capped_succ`, `capped_mono`, `toInt_mul_two`, `toInt_mul_two_neg`.
-/

namespace ScorecardInfra.GoStd.Doubling

section Ordered

variable {R : Type*} [CommSemiring R] [LinearOrder R] {base limit : R}

/-- The value after `k` doublings, which does not exceed the limit. -/
def capped (base limit : R) (k : Nat) : R := min (base * 2 ^ k) limit

theorem capped_zero (h : base ≤ limit) : capped base limit 0 = base := by
  rw [capped, pow_zero, mul_one, min_eq_left h]

theorem capped_le (k : Nat) : capped base limit k ≤ limit := min_le_right _ _

omit [LinearOrder R] in
theorem mul_two_pow_succ (base : R) (k : Nat) : base * 2 ^ (k + 1) = base * 2 ^ k * 2 := by
  rw [pow_succ, mul_assoc]

variable [IsOrderedRing R]

/-- **One doubling**, and the limit. -/
theorem capped_succ (hlimit : 0 ≤ limit) (k : Nat) :
    capped base limit (k + 1) = min (capped base limit k * 2) limit := by
  rcases le_total (base * 2 ^ k) limit with hle | hle
  · rw [capped, capped, min_eq_left hle, mul_two_pow_succ]
  · have hdouble : limit ≤ limit * 2 := le_mul_of_one_le_right hlimit one_le_two
    have hnext : limit ≤ base * 2 ^ (k + 1) := by
      calc limit ≤ limit * 2 := hdouble
        _ ≤ base * 2 ^ k * 2 := mul_le_mul_of_nonneg_right hle zero_le_two
        _ = base * 2 ^ (k + 1) := (mul_two_pow_succ base k).symm
    rw [capped, capped, min_eq_right hle, min_eq_right hnext, min_eq_right hdouble]

theorem capped_nonneg (hbase : 0 ≤ base) (hlimit : 0 ≤ limit) (k : Nat) :
    0 ≤ capped base limit k := le_min (mul_nonneg hbase (pow_nonneg zero_le_two k)) hlimit

/-- The values do not decrease. -/
theorem capped_mono (hbase : 0 ≤ base) {k k' : Nat} (h : k ≤ k') :
    capped base limit k ≤ capped base limit k' :=
  min_le_min_right limit (mul_le_mul_of_nonneg_left (pow_le_pow_right₀ one_le_two h) hbase)

end Ordered

/-! ### Numbers of 64 bits -/

variable {d : Int64}

theorem toInt_mul_two (hd : 0 ≤ d.toInt) (hlt : d.toInt < 2 ^ 62) :
    (d * 2).toInt = d.toInt * 2 := by
  have htwo : (2 : Int64).toInt = 2 := rfl
  rw [Int64.toInt_mul, htwo, Int.bmod_eq_of_le] <;> omega

/-- The double of a large number is negative. -/
theorem toInt_mul_two_neg (hle : 2 ^ 62 ≤ d.toInt) : (d * 2).toInt < 0 := by
  have htwo : (2 : Int64).toInt = 2 := rfl
  have hlt := d.toInt_lt
  rw [Int64.toInt_mul, htwo, ← Int.sub_bmod_right, Int.bmod_eq_of_le] <;> omega

end ScorecardInfra.GoStd.Doubling
