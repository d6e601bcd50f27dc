import Mathlib.Algebra.BigOperators.Group.List.Basic
import Mathlib.Algebra.CharZero.Defs
import Mathlib.Algebra.Field.Basic
import Mathlib.Tactic.LinearCombination
import Mathlib.Tactic.Ring

/-!
# Means and squared deviations

The arithmetic mean of samples, the sum of their squared deviations from it, and their
unbiased variance.  Mean and deviation of the samples so far and one further sample
determine mean and deviation of all of them, so both can be computed sample by
sample. -/

namespace LuaJack.Statistics

variable {K : Type*} [Field K]

/-- The arithmetic mean. -/
def mean (samples : List K) : K := samples.sum / samples.length

/-- The sum of the squared deviations from the mean. -/
def deviation (samples : List K) : K :=
  (samples.map fun sample => (sample - mean samples) ^ 2).sum

/-- The unbiased variance, which is zero for a single sample. -/
def variance (samples : List K) : K :=
  if 1 < samples.length then deviation samples / (samples.length - 1) else 0

@[simp] theorem mean_singleton (sample : K) : mean [sample] = sample := by
  simp [mean]

@[simp] theorem deviation_singleton (sample : K) : deviation [sample] = 0 := by
  simp [deviation]

/-! ## The order of the samples -/

section Perm

variable {samples other : List K}

theorem mean_perm (same : samples.Perm other) : mean samples = mean other := by
  simp only [mean, same.sum_eq, same.length_eq]

theorem deviation_perm (same : samples.Perm other) :
    deviation samples = deviation other := by
  simp only [deviation, mean_perm same, (same.map _).sum_eq]

end Perm

/-! ## One more sample -/

/-- Squared deviations from any point. -/
theorem sum_sq_sub (samples : List K) (point : K) :
    (samples.map fun sample => (sample - point) ^ 2).sum =
      (samples.map fun sample => sample ^ 2).sum - 2 * point * samples.sum +
        samples.length * point ^ 2 := by
  induction samples with
  | nil => simp
  | cons sample samples ih =>
      simp only [List.map_cons, List.sum_cons, List.length_cons,
        Nat.cast_add, Nat.cast_one, ih]
      ring

section CharZero

variable [CharZero K]

theorem length_mul_mean (samples : List K) :
    (samples.length : K) * mean samples = samples.sum := by
  cases samples with
  | nil => simp
  | cons sample samples =>
      have positive : ((sample :: samples).length : K) ≠ 0 :=
        Nat.cast_ne_zero.mpr (by simp)
      rw [mean, mul_div_cancel₀ _ positive]

theorem succ_mul_mean_concat (samples : List K) (sample : K) :
    ((samples.length : K) + 1) * mean (samples ++ [sample]) = samples.sum + sample := by
  simpa using length_mul_mean (samples ++ [sample])

/-- The mean moves towards the further sample. -/
theorem mean_concat (samples : List K) (sample : K) :
    mean (samples ++ [sample]) =
      mean samples + (sample - mean samples) / ((samples.length + 1 : Nat) : K) := by
  have positive : ((samples.length + 1 : Nat) : K) ≠ 0 :=
    Nat.cast_ne_zero.mpr (Nat.succ_ne_zero _)
  have before := length_mul_mean samples
  have after := succ_mul_mean_concat samples sample
  apply mul_left_cancel₀ positive
  rw [mul_add, mul_div_cancel₀ _ positive]
  push_cast
  linear_combination after - before

/-- The deviation grows by the product of the distances of the further sample from the
mean before and after it. -/
theorem deviation_concat (samples : List K) (sample : K) :
    deviation (samples ++ [sample]) =
      deviation samples + (sample - mean samples) *
        (sample - mean (samples ++ [sample])) := by
  have before := length_mul_mean samples
  have after := succ_mul_mean_concat samples sample
  simp only [deviation, sum_sq_sub, List.map_append,
    List.sum_append, List.map_cons, List.map_nil, List.sum_cons, List.sum_nil]
  linear_combination (mean (samples ++ [sample]) - mean samples) * (before + after)

end CharZero

end LuaJack.Statistics
