import CausalEngine.Correlation.RobustScale
import CausalEngine.Correlation.WarmUp

/-! A clean step of the level. Its residuals decay geometrically behind it, so few of them are large: however
early the step comes, the scale stays below a sixth of it and the first sample raises the alarm. -/

namespace CausalEngine.Correlation

open Foundations

section Decay

def lagged (prev : ℚ) (x : Vec) : Vec := List.zipWith (· - ·) x (prev :: ewmaFrom (3 / 10) prev x)

lemma lagged_cons (prev v : ℚ) (x : Vec) :
    lagged prev (v :: x) = (v - prev) :: lagged (3 / 10 * v + (1 - 3 / 10) * prev) x := rfl

lemma zipWith_dropLast (x y : Vec) (h : y.length = x.length + 1) :
    List.zipWith (· - ·) x y.dropLast = List.zipWith (· - ·) x y := by
  induction x generalizing y with
  | nil => rfl
  | cons v x ih =>
    obtain ⟨w, y, rfl⟩ := List.exists_cons_of_length_eq_add_one h
    have hy : y.length = x.length + 1 := Nat.succ.inj h
    have hne : y ≠ [] := List.ne_nil_of_length_eq_add_one hy
    rw [List.dropLast_cons_of_ne_nil hne, List.zipWith_cons_cons, List.zipWith_cons_cons, ih y hy]

lemma residuals_cons (v : ℚ) (x : Vec) : residuals (v :: x) = 0 :: lagged v x := by
  have hewma : ewma (3 / 10) (v :: x) = v :: ewmaFrom (3 / 10) v x := rfl
  have hlength : (v :: ewmaFrom (3 / 10) v x).length = x.length + 1 := by
    rw [List.length_cons, ewmaFrom_length]
  rw [residuals, hewma, List.take_succ_cons, List.take_zero, List.singleton_append, List.zipWith_cons_cons, sub_self,
    zipWith_dropLast _ _ hlength, lagged]

lemma lagged_flat (m : ℕ) (prev : ℚ) (x : Vec) :
    lagged prev (List.replicate m prev ++ x) = List.replicate m 0 ++ lagged prev x := by
  induction m with
  | zero => rfl
  | succ m ih =>
    have hprev : 3 / 10 * prev + (1 - 3 / 10) * prev = prev := by ring
    rw [List.replicate_succ, List.cons_append, lagged_cons, hprev, ih, sub_self]
    rfl

lemma lagged_jump (m : ℕ) (prev w : ℚ) :
    lagged prev (List.replicate m w) = (List.range m).map fun j => (w - prev) * (7 / 10) ^ j := by
  induction m generalizing prev with
  | zero => rfl
  | succ m ih =>
    rw [List.replicate_succ, lagged_cons, ih, List.range_succ_eq_map, List.map_cons, List.map_map, pow_zero, mul_one]
    congr 1
    apply List.map_congr_left
    intro j _
    rw [Function.comp_apply, Nat.succ_eq_add_one, pow_succ']
    ring

end Decay

section Step

variable {n t : ℕ} {c L : ℚ}

lemma stepSeries_split (htn : t ≤ n) :
    stepSeries n t c L = List.replicate t c ++ List.replicate (n - t) (c + L) := by
  obtain ⟨m, rfl⟩ := Nat.exists_eq_add_of_le htn
  rw [stepSeries, List.range_add, List.map_append, List.map_map, Nat.add_sub_cancel_left]
  congr 1
  · rw [List.eq_replicate_iff]
    refine ⟨by simp, ?_⟩
    simp only [List.mem_map, List.mem_range]
    rintro _ ⟨i, hi, rfl⟩
    exact if_pos hi
  · rw [List.eq_replicate_iff]
    refine ⟨by simp, ?_⟩
    simp only [List.mem_map, List.mem_range, Function.comp_apply]
    rintro _ ⟨i, -, rfl⟩
    exact if_neg (by omega)

lemma residuals_step (ht : 1 ≤ t) (htn : t ≤ n) : residuals (stepSeries n t c L) =
    List.replicate t 0 ++ (List.range (n - t)).map fun j => L * (7 / 10) ^ j := by
  obtain ⟨s, rfl⟩ := Nat.exists_eq_add_of_le' ht
  rw [stepSeries_split htn, List.replicate_succ, List.cons_append, residuals_cons, lagged_flat, lagged_jump,
    add_sub_cancel_left]
  rfl

end Step

section Scale

variable {n t : ℕ} {L : ℚ}

lemma decay_le {j : ℕ} (hL : 0 ≤ L) (hj : 7 ≤ j) : L * (7 / 10) ^ j ≤ L / 10 := by
  have hpow : (7 / 10 : ℚ) ^ j ≤ (7 / 10) ^ 7 := pow_le_pow_of_le_one (by norm_num) (by norm_num) hj
  have hseven : (7 / 10 : ℚ) ^ 7 ≤ 1 / 10 := by norm_num
  calc
    L * (7 / 10) ^ j ≤ L * (1 / 10) := mul_le_mul_of_nonneg_left (hpow.trans hseven) hL
    _ = L / 10 := by ring

/-- What the residuals of a clean step look like from wherever they are cut off. -/
structure Decaying (L : ℚ) (x : Vec) : Prop where
  nonneg : ∀ v ∈ x, 0 ≤ v
  large : x.countP (fun v => ¬ v ≤ L / 10) ≤ 7

lemma decaying_step (hL : 0 ≤ L) (t m : ℕ) :
    Decaying L (List.replicate t 0 ++ (List.range m).map fun j => L * (7 / 10) ^ j) := by
  constructor
  · intro v hv
    rcases List.mem_append.mp hv with hv | hv
    · exact (List.eq_of_mem_replicate hv).ge
    · obtain ⟨j, -, rfl⟩ := List.mem_map.mp hv
      positivity
  · have hflat : (List.replicate t (0 : ℚ)).countP (fun v => ¬ v ≤ L / 10) = 0 := by
      rw [List.countP_eq_zero]
      intro v hv
      rw [List.eq_of_mem_replicate hv, decide_eq_true_eq, not_not]
      positivity
    have hsub : (List.range m).filter (fun j => ¬ L * (7 / 10) ^ j ≤ L / 10) ⊆ List.range 7 := by
      intro j hj
      have hlarge := of_decide_eq_true (List.mem_filter.mp hj).2
      exact List.mem_range.mpr (lt_of_not_ge fun hc => hlarge (decay_le hL hc))
    have hlen := (List.subperm_of_subset (List.nodup_range.filter _) hsub).length_le
    rw [List.countP_append, hflat, zero_add, List.countP_map, List.countP_eq_length_filter]
    rwa [List.length_range] at hlen

lemma Decaying.take {x : Vec} (hx : Decaying L x) (q : ℕ) : Decaying L (x.take q) :=
  ⟨fun v hv => hx.nonneg v (List.mem_of_mem_take hv), ((List.take_sublist q x).countP_le).trans hx.large⟩

lemma Decaying.madSigma_le {x : Vec} (hx : Decaying L x) (hlen : 15 ≤ x.length) :
    madSigma x ≤ 14826 / 10000 * (L / 10) := by
  have hcount : x.length < 2 * x.countP (· ≤ L / 10) := by
    have hsplit := List.length_eq_countP_add_countP (fun v => decide (v ≤ L / 10)) (l := x)
    have hlarge := hx.large
    simp only [decide_not] at hlarge
    simp only [Bool.not_eq_true, Bool.decide_eq_false] at hsplit
    omega
  have hmed : median x ≤ L / 10 := median_le hcount
  have hmed0 : 0 ≤ median x := median_nonneg hx.nonneg
  have hdev : (absDev x (median x)).length < 2 * (absDev x (median x)).countP (· ≤ L / 10) := by
    rw [absDev, List.length_map, List.countP_map]
    refine hcount.trans_le (Nat.mul_le_mul_left 2 (List.countP_mono_left ?_))
    intro v hv hle
    have hv0 := hx.nonneg v hv
    simp only [Function.comp_apply, decide_eq_true_eq] at hle ⊢
    rw [abs_le]
    constructor <;> linarith
  exact mul_le_mul_of_nonneg_left (median_le hdev) (by norm_num)

lemma scale_lt {x : Vec} (hx : Decaying L x) (hlen : 15 ≤ x.length) (hL : 1 / 10 ^ 5 ≤ L) :
    11 / 2 * robustSigma x < L := by
  have hmad := hx.madSigma_le hlen
  have hsigma : robustSigma x ≤ 3 / 20 * L := by
    rw [robustSigma_eq]
    apply max_le <;> linarith
  linarith

end Scale

section FirstAlarm

variable {k h : ℚ} {warmup t : ℕ} {z : Vec}

lemma quiet_start (hk : 0 ≤ k) (hh : 0 ≤ h) (ht : warmup ≤ t) (hflat : ∀ l < t, z.getD l 0 = 0) :
    cusumBefore k h warmup z t = ⟨0, 0, warmup, []⟩ := by
  induction t, ht using Nat.le_induction with
  | base => exact cusumBefore_start
  | succ i hi ih =>
    have hstart := ih fun l hl => hflat l (hl.trans (Nat.lt_succ_self i))
    have hnext : ∀ d, (⟨0, 0, warmup, []⟩ : Cusum).next k z i d = 0 := by
      intro d
      have hgauge : (⟨0, 0, warmup, []⟩ : Cusum).gauge d = 0 := by cases d <;> rfl
      rw [Cusum.next, hgauge, Cusum.drift, hflat i (Nat.lt_succ_self i)]
      apply max_eq_left
      linarith
    have hquiet : ∀ d, ¬ (⟨0, 0, warmup, []⟩ : Cusum).Alarms k h z i d := by
      intro d ha
      have hlt := ha.2.1
      rw [hnext d] at hlt
      exact absurd hlt (not_lt.mpr hh)
    rw [cusumBefore_succ hi, hstart, Cusum.step_quiet hquiet, hnext, hnext]

lemma first_alarm (hk : 0 ≤ k) (hh : 0 ≤ h) (ht : warmup ≤ t) (hflat : ∀ l < t, z.getD l 0 = 0)
    (hjump : h + k < z.getD t 0) :
    (cusumBefore k h warmup z (t + 1)).onsets = [⟨t, .up, z.getD t 0⟩] := by
  have halarm : (⟨0, 0, warmup, []⟩ : Cusum).Alarms k h z t .up := by
    refine ⟨ht, ?_, nofun⟩
    rw [Cusum.next, Cusum.gauge, Cusum.drift, Direction.sgn, one_mul, zero_add]
    exact lt_max_of_lt_right (by linarith)
  have hback : backtrack z Direction.up.sgn t = t := by
    cases t with
    | zero => rfl
    | succ s =>
      rw [backtrack, hflat s (Nat.lt_succ_self s), if_neg (by norm_num)]
  rw [cusumBefore_succ ht, quiet_start hk hh ht hflat, Cusum.step_alarm halarm, Cusum.alarm, hback]
  rfl

end FirstAlarm

section Located

variable {n t : ℕ} {c L : ℚ}

lemma stepSeries_length : (stepSeries n t c L).length = n := by
  rw [stepSeries, List.length_map, List.length_range]

lemma zscores_getD (warmup : ℕ) (x : Vec) (l : ℕ) :
    (zscores warmup x).getD l 0 = (residuals x).getD l 0 / robustSigma (noisePrefix warmup x) := by
  have hmap := List.getD_map (n := l) (l := residuals x) (d := (0 : ℚ)) (· / robustSigma (noisePrefix warmup x))
  rwa [zero_div] at hmap

lemma residuals_before (ht : 1 ≤ t) (htn : t ≤ n) {l : ℕ} (hl : l < t) :
    (residuals (stepSeries n t c L)).getD l 0 = 0 := by
  have hlen : l < (List.replicate t (0 : ℚ)).length := by rwa [List.length_replicate]
  rw [residuals_step ht htn, List.getD_append _ _ _ _ hlen, List.getD_replicate _ hl]

lemma residuals_at (ht : 1 ≤ t) (htn : t < n) : (residuals (stepSeries n t c L)).getD t 0 = L := by
  obtain ⟨m, hm⟩ : ∃ m, n - t = m + 1 := ⟨n - t - 1, by omega⟩
  have hlen : (List.replicate t (0 : ℚ)).length ≤ t := List.length_replicate.le
  rw [residuals_step ht htn.le, List.getD_append_right _ _ _ _ hlen, List.length_replicate, Nat.sub_self, hm,
    List.range_succ_eq_map, List.map_cons, List.getD_cons_zero, pow_zero, mul_one]

lemma step_scale (hn : 16 ≤ n) (ht : 1 ≤ t) (htn : t ≤ n) (hL : 1 / 10 ^ 5 ≤ L) :
    11 / 2 * robustSigma (noisePrefix 12 (stepSeries n t c L)) < L := by
  have hdecay : Decaying L (residuals (stepSeries n t c L)) := by
    rw [residuals_step ht htn]
    exact decaying_step (by linarith) t (n - t)
  refine scale_lt (hdecay.take _) ?_ hL
  rw [noisePrefix, List.length_take, residuals_step ht htn, stepSeries_length, List.length_append,
    List.length_replicate, List.length_map, List.length_range]
  omega

end Located

/-- The first onset of a clean step is the step. -/
theorem clean_step_located (n t : ℕ) (c L : ℚ) (hn : 16 ≤ n) (ht : 12 ≤ t) (htn : t < n) (hL : 1 / 10 ^ 5 ≤ L) :
    (cusumOnsets (stepSeries n t c L)).head?.map (fun o => (o.idx, o.direction)) = some (t, .up) := by
  set z := zscores 12 (stepSeries n t c L) with hz
  have hflat : ∀ l < t, z.getD l 0 = 0 := by
    intro l hl
    rw [hz, zscores_getD, residuals_before (by omega) htn.le hl, zero_div]
  have hjump : 5 + 1 / 2 < z.getD t 0 := by
    have hpos : 0 < robustSigma (noisePrefix 12 (stepSeries n t c L)) := lt_max_of_lt_right (by norm_num)
    have hscale := step_scale (c := c) hn (by omega) htn.le hL
    rw [hz, zscores_getD, residuals_at (by omega) htn, lt_div_iff₀ hpos]
    linarith
  have hlen : (stepSeries n t c L).length = n := stepSeries_length
  have honset := first_alarm (by norm_num) (by norm_num) ht hflat hjump
  have hpre := onsets_prefix (k := 1 / 2) (h := 5) (z := z) (by omega : 12 ≤ t + 1) (by omega : t + 1 ≤ n)
  obtain ⟨rest, hrest⟩ := hpre
  have hall : cusumOnsets (stepSeries n t c L) = ⟨t, .up, z.getD t 0⟩ :: rest := by
    rw [cusumOnsets, cusumOnsets_eq (by omega), hlen, ← hz, ← hrest, honset, List.singleton_append]
  rw [hall]
  rfl

theorem clean_step_located_early :
    (cusumOnsets (stepSeries 16 12 3 (1 / 10 ^ 5))).head?.map (fun o => (o.idx, o.direction)) = some (12, .up) :=
  clean_step_located 16 12 3 (1 / 10 ^ 5) (by norm_num) (by norm_num) (by norm_num) (by norm_num)

end CausalEngine.Correlation
