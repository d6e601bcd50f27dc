import LuaJack.RealTime.Profile
import LuaJack.Statistics
import Mathlib.Algebra.Order.Field.Rat
import Mathlib.Data.Rat.Cast.CharZero
import Mathlib.Order.Bounds.Basic

/-!
# Statistics of profiled callbacks

`luajack_stat_update` takes one sample after the other into account.  In exact
arithmetic the statistics are those of all samples, as long as their number fits in the
counter. -/

namespace LuaJack.Profiling

open Statistics (mean deviation deviation_concat deviation_perm mean_concat mean_perm)

/-- The statistics after `luajack_stat_reset` and an update for each sample. -/
def statOf (samples : List ℚ) : Stat ℚ := samples.foldl Stat.update .reset

/-- The statistics are those of the samples. -/
structure Summarises (stat : Stat ℚ) (samples : List ℚ) : Prop where
  n : stat.n.toNat = samples.length
  min : IsLeast {sample | sample ∈ samples} stat.min
  max : IsGreatest {sample | sample ∈ samples} stat.max
  mean : stat.mean = mean samples
  m2 : stat.m2 = deviation samples

theorem statOf_concat (samples : List ℚ) (sample : ℚ) :
    statOf (samples ++ [sample]) = (statOf samples).update sample := by
  simp [statOf]

/-- The counter wraps around. -/
theorem statOf_n (samples : List ℚ) :
    (statOf samples).n = BitVec.ofNat 64 samples.length := by
  induction samples using List.reverseRecOn with
  | nil => rfl
  | append_singleton samples sample ih =>
      rw [statOf_concat, List.length_append, BitVec.ofNat_add, ← ih]
      rfl

namespace Summarises

variable {stat : Stat ℚ} {samples : List ℚ} {sample : ℚ}

theorem setOf_mem_concat :
    {other | other ∈ samples ++ [sample]} = insert sample {other | other ∈ samples} := by
  ext other
  simp [or_comm]

/-- After the first sample, which is within the initial bounds. -/
theorem first (nonneg : 0 ≤ sample) (bounded : sample ≤ 10000000000) :
    Summarises (Stat.reset.update sample) [sample] where
  n := rfl
  min := by
    have isMin : (Stat.reset.update sample).min = sample := by
      apply ite_eq_left_iff.mpr
      intro notLess
      exact le_antisymm (not_lt.mp notLess) bounded
    simp [isMin]
  max := by
    have isMax : (Stat.reset.update sample).max = sample := by
      apply ite_eq_left_iff.mpr
      intro notLess
      exact le_antisymm nonneg (not_lt.mp notLess)
    simp [isMax]
  mean := by simp [Stat.update, Stat.reset]
  m2 := by simp [Stat.update, Stat.reset]

/-- A further sample is taken into account. -/
theorem update (summarises : Summarises stat samples)
    (counted : samples.length + 1 < 2 ^ 64) :
    Summarises (stat.update sample) (samples ++ [sample]) := by
  have isCount : (stat.n + 1).toNat = samples.length + 1 := by
    rw [BitVec.toNat_add, summarises.n]
    exact Nat.mod_eq_of_lt counted
  have isMean : (stat.update sample).mean = Statistics.mean (samples ++ [sample]) := by
    rw [mean_concat, ← summarises.mean, ← isCount]
    rfl
  constructor
  · rw [List.length_append]
    exact isCount
  · rw [setOf_mem_concat]
    have isMin : (stat.update sample).min = Min.min sample stat.min := by
      rw [min_def_lt]
      rfl
    rw [isMin]
    exact summarises.min.insert sample
  · rw [setOf_mem_concat]
    have isMax : (stat.update sample).max = Max.max stat.max sample := by
      rw [max_def_lt]
      rfl
    rw [isMax, max_comm]
    exact summarises.max.insert sample
  · exact isMean
  · rw [deviation_concat, ← isMean, ← summarises.mean, ← summarises.m2]
    rfl

/-- The whole run. -/
theorem run (nonempty : samples ≠ [])
    (range : ∀ sample ∈ samples, 0 ≤ sample ∧ sample ≤ 10000000000)
    (counted : samples.length < 2 ^ 64) : Summarises (statOf samples) samples := by
  induction samples using List.reverseRecOn with
  | nil => exact absurd rfl nonempty
  | append_singleton samples sample ih =>
      rw [List.length_append, List.length_singleton] at counted
      rw [statOf_concat]
      cases samples with
      | nil =>
          obtain ⟨nonneg, bounded⟩ := range sample (by simp)
          exact first nonneg bounded
      | cons head samples =>
          apply update _ counted
          apply ih (by simp) _ (Nat.lt_of_succ_lt counted)
          exact fun other member => range other (List.mem_append_left _ member)

/-- Samples in another order have the same statistics. -/
theorem perm {other : List ℚ} {same : Stat ℚ} (summarises : Summarises stat samples)
    (others : Summarises same other) (perm : other.Perm samples) : same = stat := by
  have isSet : {sample | sample ∈ other} = {sample | sample ∈ samples} := by
    ext sample
    exact perm.mem_iff
  have isLeast := others.min
  have isGreatest := others.max
  rw [isSet] at isLeast isGreatest
  have n : same.n = stat.n := by
    apply BitVec.eq_of_toNat_eq
    rw [summarises.n, others.n, perm.length_eq]
  have mean : same.mean =
      stat.mean := by rw [summarises.mean, others.mean, mean_perm perm]
  have m2 : same.m2 = stat.m2 := by rw [summarises.m2, others.m2, deviation_perm perm]
  cases stat
  cases same
  simp_all only [Stat.mk.injEq, true_and, and_true]
  exact ⟨isGreatest.unique summarises.max, isLeast.unique summarises.min⟩

theorem variance (summarises : Summarises stat samples) :
    stat.variance = Statistics.variance samples := by
  have isNumber : (1 < stat.n) ↔ 1 < samples.length := by
    rw [← summarises.n]
    exact BitVec.lt_def
  unfold Stat.variance Statistics.variance
  by_cases several : 1 < samples.length
  · have isPred : ((stat.n - 1).toNat : ℚ) = samples.length - 1 := by
      rw [BitVec.toNat_sub_of_le (BitVec.le_of_lt (isNumber.mpr several)), summarises.n]
      push_cast [Nat.le_of_lt several]
      rfl
    rw [if_pos (isNumber.mpr several), if_pos several, isPred, summarises.m2]
  · rw [if_neg fun more => several (isNumber.mp more), if_neg several]

end Summarises

/-- Fewer than 2^64 samples within the initial bounds have these statistics, in any
order. -/
theorem stat_summarises (samples : List ℚ) (nonempty : samples ≠ [])
    (range : ∀ sample ∈ samples, 0 ≤ sample ∧ sample ≤ 10000000000)
    (counted : samples.length < 2 ^ 64) :
    Summarises (statOf samples) samples ∧
      (statOf samples).variance = Statistics.variance samples ∧
      ∀ other : List ℚ, other.Perm samples → statOf other = statOf samples := by
  have summarises := Summarises.run nonempty range counted
  refine ⟨summarises, summarises.variance, ?_⟩
  intro other perm
  apply summarises.perm _ perm
  apply Summarises.run
  · exact fun isNil => nonempty (List.nil_perm.mp (isNil ▸ perm))
  · exact fun sample member => range sample (perm.mem_iff.mp member)
  · exact perm.length_eq.trans_lt counted

theorem stat_summarises_two :
    Summarises (statOf [1, 3]) [1, 3] ∧
      (statOf [1, 3]).variance = Statistics.variance [1, 3] ∧
      ∀ other : List ℚ, other.Perm [1, 3] → statOf other = statOf [1, 3] :=
  stat_summarises [1, 3] (by simp) (by norm_num) (by decide)

/-- After 2^64 samples the counter is zero again. -/
theorem not_stat_summarises :
    List.replicate (2 ^ 64) (0 : ℚ) ≠ [] ∧
      (∀ sample ∈ List.replicate (2 ^ 64) (0 : ℚ), 0 ≤ sample ∧ sample ≤ 10000000000) ∧
      ¬ Summarises (statOf (List.replicate (2 ^ 64) 0)) (List.replicate (2 ^ 64) 0) := by
  refine ⟨?_, ?_, ?_⟩
  · rw [Ne, List.replicate_eq_nil_iff]
    decide
  · intro sample member
    rw [List.eq_of_mem_replicate member]
    norm_num
  · intro summarises
    have count := summarises.n
    rw [statOf_n, List.length_replicate] at count
    exact absurd count (by decide)

end LuaJack.Profiling
