import Mathlib.Algebra.BigOperators.Intervals
import Mathlib.Algebra.Order.BigOperators.Group.Finset
import Mathlib.Tactic

/-! Sums clamped at zero, started at an index `s`. Such a sum is the largest sum of the terms that some index
opens and the present one closes, where that is positive. -/

namespace CausalEngine.Foundations

open Finset

variable {K : Type} [AddCommGroup K] [LinearOrder K] (d : ℕ → K) (s : ℕ)

def clamped : ℕ → K
  | 0 => 0
  | i + 1 => if s ≤ i then max 0 (clamped i + d i) else 0

variable {d s}

lemma clamped_start : clamped d s s = 0 := by
  cases s with
  | zero => rfl
  | succ n => exact if_neg (by omega)

lemma clamped_succ {i : ℕ} (h : s ≤ i) : clamped d s (i + 1) = max 0 (clamped d s i + d i) := if_pos h

lemma clamped_nonneg (i : ℕ) : 0 ≤ clamped d s i := by
  cases i with
  | zero => exact le_rfl
  | succ i =>
    rw [clamped]
    split_ifs
    · exact le_max_left _ _
    · exact le_rfl

lemma clamped_attained {i : ℕ} (h : s ≤ i) : ∃ j, s ≤ j ∧ j ≤ i ∧ clamped d s i = ∑ l ∈ Ico j i, d l := by
  induction i, h using Nat.le_induction with
  | base => exact ⟨s, le_rfl, le_rfl, by rw [clamped_start, Ico_self, sum_empty]⟩
  | succ i hi ih =>
    rw [clamped_succ hi]
    rcases le_total (clamped d s i + d i) 0 with hle | hle
    · exact ⟨i + 1, by omega, le_rfl, by rw [max_eq_left hle, Ico_self, sum_empty]⟩
    · obtain ⟨j, hsj, hji, hsum⟩ := ih
      exact ⟨j, hsj, by omega, by rw [max_eq_right hle, hsum, sum_Ico_succ_top hji]⟩

section Ordered

variable [IsOrderedAddMonoid K]

lemma sum_le_clamped {i j : ℕ} (hs : s ≤ j) (hji : j ≤ i) : ∑ l ∈ Ico j i, d l ≤ clamped d s i := by
  induction i, hji using Nat.le_induction with
  | base => simpa using (clamped_nonneg j : 0 ≤ clamped d s j)
  | succ i hi ih =>
    rw [sum_Ico_succ_top hi, clamped_succ (hs.trans hi)]
    exact (add_le_add_left ih (d i)).trans (le_max_right _ _)

lemma lt_clamped_iff {h : K} {i : ℕ} (hi : s ≤ i) :
    h < clamped d s i ↔ ∃ j, s ≤ j ∧ j ≤ i ∧ h < ∑ l ∈ Ico j i, d l := by
  constructor
  · intro hlt
    obtain ⟨j, hsj, hji, hsum⟩ := clamped_attained (d := d) hi
    exact ⟨j, hsj, hji, hsum ▸ hlt⟩
  · rintro ⟨j, hsj, hji, hlt⟩
    exact hlt.trans_le (sum_le_clamped hsj hji)

end Ordered

end CausalEngine.Foundations
