/-
# The mean of a list

A program that averages keeps a sum and a count, and the two can come apart: the sum of
some values may be divided by the number of others. The quotient is then the mean of the
values only when the counts agree or there is nothing to divide.
-/

import Mathlib.Algebra.BigOperators.Group.List.Basic
import Mathlib.Algebra.Field.Basic
import Mathlib.Data.Nat.Cast.Basic
import Mathlib.Algebra.CharZero.Defs

namespace LibBench.Math

variable {K : Type*} [DivisionRing K]

/-- The mean of some values, which is zero when there are none. -/
def mean (values : List K) : K :=
  values.sum / values.length

/-- A sum over the wrong count is the mean when the sum is zero, and only then. -/
theorem sum_div_eq_mean_iff [CharZero K] (values : List K) (count : ℕ) :
    values.sum / count = mean values ↔ count = values.length ∨ values.sum = 0 := by
  by_cases hsum : values.sum = 0
  · simp [mean, hsum]
  · rw [mean, div_eq_mul_inv, div_eq_mul_inv, mul_right_inj' hsum, inv_inj, Nat.cast_inj]
    exact ⟨Or.inl, fun h => h.resolve_right hsum⟩

end LibBench.Math
