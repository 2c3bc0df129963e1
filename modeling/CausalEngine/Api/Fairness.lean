import CausalEngine.Foundations.MeanDifference
import CausalEngine.Foundations.OrderedMap
import CausalEngine.Foundations.Rounding
import Mathlib.Data.List.Sort
import Mathlib.Data.String.Basic

/-! How evenly the stall of a namespace falls on its workloads. The index is computed from the ranks of the
sorted stalls; it is the mean difference of two members relative to twice their mean. -/

namespace CausalEngine.Api

open Foundations

def members (xs : List ℚ) : List ℚ := (xs.filter fun v => 0 ≤ v).insertionSort (· ≤ ·)

def unroundedGini (xs : List ℚ) : ℚ :=
  let n : ℚ := (members xs).length
  let cum := ((members xs).zipIdx.map fun p => ((p.2 : ℚ) + 1) * p.1).sum
  2 * cum / (n * (members xs).sum) - (n + 1) / n

def gini (xs : List ℚ) : ℚ :=
  if members xs = [] ∨ (members xs).sum = 0 then 0 else roundTo 3 (unroundedGini xs)

structure NamespaceFairness where
  ns : String
  gini : ℚ
  workloads : ℕ
deriving DecidableEq

def fairness (stallByKey : OrderedMap (String × String) ℚ) : List NamespaceFairness :=
  let byNs : OrderedMap String (List ℚ) := stallByKey.entries.foldl
    (fun m e => m.set e.1.1 ((m.get? e.1.1).getD [] ++ [e.2])) .empty
  (byNs.entries.insertionSort fun a b => a.1 ≤ b.1).map fun e => ⟨e.1, gini e.2, e.2.length⟩

section Index

variable {xs : List ℚ}

lemma members_nonneg : ∀ v ∈ members xs, 0 ≤ v := by
  intro v hv
  exact of_decide_eq_true (List.mem_filter.mp ((List.mem_insertionSort _).mp hv)).2

lemma members_sorted : (members xs).Pairwise (· ≤ ·) := List.pairwise_insertionSort _ _

lemma members_of_perm {ys : List ℚ} (h : (ys.filter fun v => 0 ≤ v).Perm (xs.filter fun v => 0 ≤ v)) :
    members ys = members xs := by
  apply List.Perm.eq_of_pairwise' (r := (· ≤ ·)) members_sorted members_sorted
  exact ((List.perm_insertionSort _ _).trans h).trans (List.perm_insertionSort _ _).symm

lemma members_scale {c : ℚ} (hc : 0 < c) (xs : List ℚ) :
    (members (xs.map (c * ·))).Perm ((members xs).map (c * ·)) := by
  have hsign : ∀ v, decide (0 ≤ c * v) = decide (0 ≤ v) := fun v => by simp [mul_nonneg_iff_of_pos_left hc]
  refine (List.perm_insertionSort _ _).trans ?_
  rw [List.filter_map]
  simp only [Function.comp_def, hsign]
  exact ((List.perm_insertionSort _ _).map _).symm

lemma members_pos (hs : 0 < (members xs).sum) : (0 : ℚ) < (members xs).length := by
  have hne : members xs ≠ [] := by
    intro hnil
    simp [hnil] at hs
  exact_mod_cast List.length_pos_of_ne_nil hne

lemma unroundedGini_eq (hs : 0 < (members xs).sum) :
    unroundedGini xs = pairGaps (members xs) / (2 * (members xs).length * (members xs).sum) := by
  have hn := (members_pos hs).ne'
  have hrank : ((members xs).zipIdx.map fun p => ((p.2 : ℚ) + 1) * p.1).sum = rankSum 1 (members xs) := by
    rw [rankSum, List.zipIdx_succ, List.map_map]
    simp [Function.comp_def]
  rw [unroundedGini, hrank, pairGaps_sorted members_sorted]
  field_simp
  ring

lemma unroundedGini_nonneg (hs : 0 < (members xs).sum) : 0 ≤ unroundedGini xs := by
  have hn := members_pos hs
  rw [unroundedGini_eq hs]
  exact div_nonneg (pairGaps_nonneg _) (by positivity)

lemma unroundedGini_le (hs : 0 < (members xs).sum) : unroundedGini xs ≤ 1 - 1 / (members xs).length := by
  have hn := members_pos hs
  have hle : pairGaps (members xs) ≤ _ := pairGaps_le members_nonneg
  rw [unroundedGini_eq hs, div_le_iff₀ (by positivity)]
  calc pairGaps (members xs) ≤ 2 * ((members xs).length - 1) * (members xs).sum := hle
    _ = (1 - 1 / (members xs).length) * (2 * (members xs).length * (members xs).sum) := by field_simp

lemma unroundedGini_eq_zero (hs : 0 < (members xs).sum) :
    unroundedGini xs = 0 ↔ ∀ a ∈ members xs, ∀ b ∈ members xs, a = b := by
  have hn := members_pos hs
  have hne : 2 * ((members xs).length : ℚ) * (members xs).sum ≠ 0 := by positivity
  rw [unroundedGini_eq hs, div_eq_zero_iff, or_iff_left hne, pairGaps_eq_zero]

lemma unroundedGini_scale (hs : 0 < (members xs).sum) {c : ℚ} (hc : 0 < c) :
    unroundedGini (xs.map (c * ·)) = unroundedGini xs := by
  have hperm := members_scale hc xs
  have hsum : (members (xs.map (c * ·))).sum = c * (members xs).sum := by
    rw [hperm.sum_eq, List.sum_map_mul_left, List.map_id']
  have hlen : (members (xs.map (c * ·))).length = (members xs).length := by
    rw [hperm.length_eq, List.length_map]
  have hn := members_pos hs
  rw [unroundedGini_eq (hsum ▸ mul_pos hc hs), unroundedGini_eq hs, pairGaps_perm hperm, pairGaps_scale hc.le, hsum,
    hlen]
  field_simp

lemma gini_eq (hs : 0 < (members xs).sum) : gini xs = roundTo 3 (unroundedGini xs) := by
  apply if_neg
  rintro (hnil | hzero)
  · simp [hnil] at hs
  · exact hs.ne' hzero

end Index

/-- The index of the members is the mean difference of two of them relative to twice their mean. -/
theorem gini_mean_difference (xs : List ℚ) (hs : 0 < (members xs).sum) :
    gini xs = roundTo 3 (unroundedGini xs) ∧
    unroundedGini xs = pairGaps (members xs) / (2 * (members xs).length * (members xs).sum) ∧
    (0 ≤ unroundedGini xs ∧ unroundedGini xs ≤ 1 - 1 / (members xs).length) ∧
    (unroundedGini xs = 0 ↔ ∀ a ∈ members xs, ∀ b ∈ members xs, a = b) ∧
    (∀ ys, (ys.filter fun v => 0 ≤ v).Perm (xs.filter fun v => 0 ≤ v) → unroundedGini ys = unroundedGini xs) ∧
    ∀ c, 0 < c → unroundedGini (xs.map (c * ·)) = unroundedGini xs := by
  refine ⟨gini_eq hs, unroundedGini_eq hs, ⟨unroundedGini_nonneg hs, unroundedGini_le hs⟩,
    unroundedGini_eq_zero hs, ?_, fun c => unroundedGini_scale hs⟩
  intro ys hperm
  rw [unroundedGini, unroundedGini, members_of_perm hperm]

theorem gini_mean_difference_skewed : 0 < (members [1, -7, 3]).sum ∧
    unroundedGini [1, -7, 3] =
      pairGaps (members [1, -7, 3]) / (2 * (members [1, -7, 3]).length * (members [1, -7, 3]).sum) ∧
    unroundedGini [1, -7, 3] = 1 / 4 := by
  have hs : 0 < (members [1, -7, 3]).sum := by decide +kernel
  exact ⟨hs, (gini_mean_difference _ hs).2.1, by decide +kernel⟩

end CausalEngine.Api
