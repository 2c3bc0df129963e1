import CausalEngine.Correlation.Detectors
import Mathlib.Data.List.GetD

/-! The scale of the residuals: medians under a change of units and their bounds, and the residuals of a series
against its moving average. -/

namespace CausalEngine.Correlation

section Median

variable {x : Vec} {c : ℚ}

lemma sorted_scale {a : ℚ} (ha : 0 < a) (x : Vec) : sorted (x.map (a * ·)) = (sorted x).map (a * ·) := by
  have hmono : ∀ v ∈ x, ∀ w ∈ x, v ≤ w ↔ a * v ≤ a * w := fun _ _ _ _ => (mul_le_mul_iff_right₀ ha).symm
  exact (List.map_insertionSort (· ≤ ·) (· ≤ ·) (a * ·) x hmono).symm

lemma getD_scale (a : ℚ) (x : Vec) (i : ℕ) : (x.map (a * ·)).getD i 0 = a * x.getD i 0 := by
  have h := List.getD_map (n := i) (l := x) (d := (0 : ℚ)) (a * ·)
  rwa [mul_zero] at h

lemma median_scale {a : ℚ} (ha : 0 < a) (x : Vec) : median (x.map (a * ·)) = a * median x := by
  simp only [median, sorted_scale ha, List.length_map, getD_scale]
  split_ifs
  · rfl
  · ring

lemma absDev_scale {a : ℚ} (ha : 0 < a) (x : Vec) (c : ℚ) :
    absDev (x.map (a * ·)) (a * c) = (absDev x c).map (a * ·) := by
  rw [absDev, absDev, List.map_map, List.map_map]
  apply List.map_congr_left
  intro v _
  rw [Function.comp_apply, Function.comp_apply, ← mul_sub, abs_mul, abs_of_pos ha]

lemma sorted_length (x : Vec) : (sorted x).length = x.length := List.length_insertionSort _ _

lemma sorted_getD_le {j : ℕ} (h : j < x.countP (· ≤ c)) : (sorted x).getD j 0 ≤ c := by
  have hperm : (sorted x).Perm x := List.perm_insertionSort _ x
  have hsorted : (sorted x).Pairwise (· ≤ ·) := List.pairwise_insertionSort _ _
  rw [← hperm.countP_eq] at h
  by_contra hc
  have hlen : j < (sorted x).length := h.trans_le List.countP_le_length
  have hdrop : ((sorted x).drop j).countP (· ≤ c) = 0 := by
    rw [List.countP_eq_zero]
    intro v hv
    have hget : (sorted x).getD j 0 = (sorted x)[j] := List.getD_eq_getElem _ _ hlen
    rw [List.drop_eq_getElem_cons hlen] at hv
    have hjv : (sorted x)[j] ≤ v := by
      rcases List.mem_cons.mp hv with rfl | hv
      · exact le_rfl
      · have htail := hsorted.sublist (List.drop_sublist j (sorted x))
        rw [List.drop_eq_getElem_cons hlen] at htail
        exact (List.pairwise_cons.mp htail).1 v hv
    rw [hget, not_le] at hc
    simpa using hc.trans_le hjv
  have htake : ((sorted x).take j).countP (· ≤ c) ≤ j :=
    List.countP_le_length.trans (by rw [List.length_take]; exact Nat.min_le_left _ _)
  rw [← List.take_append_drop j (sorted x), List.countP_append, hdrop] at h
  omega

lemma median_le (h : x.length < 2 * x.countP (· ≤ c)) : median x ≤ c := by
  have hmid := sorted_getD_le (x := x) (c := c) (j := x.length / 2) (by omega)
  have hlow := sorted_getD_le (x := x) (c := c) (j := x.length / 2 - 1) (by omega)
  simp only [median, sorted_length]
  split_ifs
  · exact hmid
  · linarith

lemma median_nonneg (h : ∀ v ∈ x, 0 ≤ v) : 0 ≤ median x := by
  have hget : ∀ j, 0 ≤ (sorted x).getD j 0 := by
    intro j
    rcases lt_or_ge j (sorted x).length with hj | hj
    · rw [List.getD_eq_getElem _ _ hj]
      exact h _ ((List.mem_insertionSort _).mp (List.getElem_mem hj))
    · rw [List.getD_eq_default _ _ hj]
  simp only [median]
  split_ifs
  · exact hget _
  · have h₁ := hget ((sorted x).length / 2 - 1)
    have h₂ := hget ((sorted x).length / 2)
    linarith

end Median

section Residuals

def residuals (x : Vec) : Vec :=
  List.zipWith (· - ·) x ((ewma (3 / 10) x).take 1 ++ (ewma (3 / 10) x).dropLast)

def noisePrefix (warmup : ℕ) (x : Vec) : Vec := (residuals x).take (min (max (warmup * 2) (x.length / 3)) 60)

def madSigma (x : Vec) : ℚ := 14826 / 10000 * median (absDev x (median x))

lemma zscores_eq (warmup : ℕ) (x : Vec) :
    zscores warmup x = (residuals x).map (· / robustSigma (noisePrefix warmup x)) := rfl

lemma robustSigma_eq (x : Vec) : robustSigma x = max (madSigma x) (1 / 10 ^ 6) := rfl

variable {a b : ℚ}

lemma ewmaFrom_affine (alpha prev : ℚ) (x : Vec) : ewmaFrom alpha (a * prev + b) (x.map fun v => a * v + b) =
    (ewmaFrom alpha prev x).map fun v => a * v + b := by
  induction x generalizing prev with
  | nil => rfl
  | cons v x ih =>
    have hstep : alpha * (a * v + b) + (1 - alpha) * (a * prev + b) = a * (alpha * v + (1 - alpha) * prev) + b := by
      ring
    rw [List.map_cons, ewmaFrom, ewmaFrom, List.map_cons, hstep, ih]

lemma ewma_affine (alpha : ℚ) (x : Vec) :
    ewma alpha (x.map fun v => a * v + b) = (ewma alpha x).map fun v => a * v + b := by
  cases x with
  | nil => rfl
  | cons v x => rw [List.map_cons, ewma, ewma, List.map_cons, ewmaFrom_affine]

lemma residuals_affine (x : Vec) : residuals (x.map fun v => a * v + b) = (residuals x).map (a * ·) := by
  rw [residuals, ewma_affine, ← List.map_take, ← List.map_dropLast, ← List.map_append, List.zipWith_map,
    residuals, List.map_zipWith]
  congr 1
  funext v w
  ring

lemma noisePrefix_affine (warmup : ℕ) (x : Vec) :
    noisePrefix warmup (x.map fun v => a * v + b) = (noisePrefix warmup x).map (a * ·) := by
  rw [noisePrefix, residuals_affine, List.length_map, ← List.map_take]
  rfl

lemma madSigma_scale (ha : 0 < a) (x : Vec) : madSigma (x.map (a * ·)) = a * madSigma x := by
  rw [madSigma, median_scale ha, absDev_scale ha, median_scale ha, madSigma]
  ring

end Residuals

/-- Where the spread of the residuals is above the floor in both units, the units do not matter. -/
theorem onsets_affine (k h : ℚ) (warmup : ℕ) (x : Vec) (a b : ℚ) (ha : 0 < a)
    (hx : 1 / 10 ^ 6 ≤ madSigma (noisePrefix warmup x))
    (hy : 1 / 10 ^ 6 ≤ madSigma (noisePrefix warmup (x.map fun v => a * v + b))) :
    cusumOnsetsWith k h warmup (x.map fun v => a * v + b) = cusumOnsetsWith k h warmup x := by
  have hz : zscores warmup (x.map fun v => a * v + b) = zscores warmup x := by
    rw [noisePrefix_affine, madSigma_scale ha] at hy
    rw [zscores_eq, zscores_eq, residuals_affine, noisePrefix_affine, robustSigma_eq, robustSigma_eq,
      madSigma_scale ha, max_eq_left hx, max_eq_left hy, List.map_map]
    apply List.map_congr_left
    intro v _
    exact mul_div_mul_left v _ ha.ne'
  rw [cusumOnsetsWith, cusumOnsetsWith, hz, List.length_map]

def hum : Vec := (List.range 24).map fun i : ℕ => if 18 ≤ i then 9 else if i % 2 = 0 then 0 else 1

theorem onsets_affine_hum : cusumOnsets (hum.map fun v => 1000 * v + 7) = cusumOnsets hum ∧ cusumOnsets hum ≠ [] :=
  ⟨onsets_affine (1 / 2) 5 12 hum 1000 7 (by norm_num) (by decide +kernel) (by decide +kernel), by decide +kernel⟩

end CausalEngine.Correlation
