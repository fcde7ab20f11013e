import Mathlib.Algebra.Order.Ring.Int
import Mathlib.Tactic.NormNum

/-! Comparisons with a quotient cut toward zero. Such a quotient is above a
nonnegative bound from the next multiple of the divisor on, and above a negative
bound as soon as the multiple itself is passed. -/

namespace TruncatedDivision

variable {x m c : ℤ}

theorem tdiv_of_neg (negative : x < 0) : x.tdiv c = -((-x) / c) := by
  rw [← Int.tdiv_eq_ediv_of_nonneg (by omega), Int.neg_tdiv, neg_neg]

theorem lt_tdiv_iff_of_nonneg (positive : 0 < c) (nonneg : 0 ≤ m) :
    m < x.tdiv c ↔ (m + 1) * c ≤ x := by
  by_cases sign : 0 ≤ x
  · rw [Int.tdiv_eq_ediv_of_nonneg sign, ← Int.add_one_le_iff, Int.le_ediv_iff_mul_le positive]
  · have quotient : 0 ≤ (-x) / c := Int.ediv_nonneg (by omega) positive.le
    have product : 0 ≤ (m + 1) * c := mul_nonneg (by omega) positive.le
    rw [tdiv_of_neg (by omega)]
    omega

theorem lt_tdiv_iff_of_neg (positive : 0 < c) (negative : m < 0) :
    m < x.tdiv c ↔ m * c < x := by
  by_cases sign : 0 ≤ x
  · have quotient : 0 ≤ x / c := Int.ediv_nonneg sign positive.le
    have product : m * c < 0 := mul_neg_of_neg_of_pos negative positive
    rw [Int.tdiv_eq_ediv_of_nonneg sign]
    omega
  · have bound : (-x) / c < -m ↔ -x < -m * c := Int.ediv_lt_iff_lt_mul positive
    rw [neg_mul] at bound
    rw [tdiv_of_neg (by omega)]
    omega

end TruncatedDivision
