import CausalEngine.Correlation.LinearClimb
import CausalEngine.Foundations.LeastSquares

/-! The early warning on a climb that is read at uneven times. Each reading is off the line by what the level climbs in
the time that the reading is off; the fitted slope is then off by a share of that. -/

namespace CausalEngine.Correlation

open Foundations

section Bridge

variable {n : ℕ}

lemma mean_range (f : ℕ → ℚ) : mean ((List.range n).map f) = avg n f := by
  rw [mean, List.length_map, List.length_range, avg]
  rfl

lemma comoment_range (f g : ℕ → ℚ) : comoment ((List.range n).map f) ((List.range n).map g) = cov n f g := by
  rw [comoment, mean_range, mean_range, List.map_map, List.map_map, dot, List.zipWith_map, List.zipWith_self]
  rfl

lemma polyfitSlope_range (f : ℕ → ℚ) :
    polyfitSlope ((List.range n).map f) = cov n Nat.cast f / cov n (Nat.cast : ℕ → ℚ) Nat.cast := by
  rw [polyfitSlope_comoment, List.length_map, List.length_range, ramp, comoment_range, comoment_range]

lemma cov_index : cov n (Nat.cast : ℕ → ℚ) Nat.cast = n * ((n : ℚ) ^ 2 - 1) / 12 := by
  rw [← comoment_range, ← comoment_ramp]
  rfl

end Bridge

section Segment

variable {n : ℕ} {a m c δ : ℚ} {d : ℕ → ℚ} (hn : minFitN ≤ n) (hm : 0 < m) (hd : ∀ i < n, |d i - c| ≤ δ)
include hn hm hd

omit hm hd in
lemma fit_ne_zero : n ≠ 0 := by
  rintro rfl
  exact absurd hn (by decide)

lemma noise_share : cov n d d ≤ (3 / 5 * δ / m) ^ 2 * (m ^ 2 * cov n (Nat.cast : ℕ → ℚ) Nat.cast) := by
  have hn' : (6 : ℚ) ≤ n := by exact_mod_cast hn
  have hsquare : (36 : ℚ) ≤ (n : ℚ) ^ 2 := by nlinarith
  have hterm : 0 ≤ n * δ ^ 2 := by positivity
  calc cov n d d
      ≤ n * δ ^ 2 := cov_self_le (fit_ne_zero hn) hd
    _ ≤ 9 / 300 * ((n : ℚ) ^ 2 - 1) * (n * δ ^ 2) := by nlinarith
    _ = (3 / 5 * δ / m) ^ 2 * (m ^ 2 * cov n (Nat.cast : ℕ → ℚ) Nat.cast) := by
      rw [cov_index]
      field_simp
      ring

lemma share_nonneg : 0 ≤ 3 / 5 * δ / m := by
  have hδ : 0 ≤ δ := (abs_nonneg _).trans (hd 0 (lt_of_lt_of_le (by decide) hn))
  positivity

lemma slope_jittered : |polyfitSlope ((List.range n).map (line a m d)) - m| ≤ 3 / 5 * δ := by
  have hn' : (6 : ℚ) ≤ n := by exact_mod_cast hn
  have htt : 0 < cov n (Nat.cast : ℕ → ℚ) Nat.cast := by
    rw [cov_index]
    have hsquare : (0 : ℚ) < (n : ℚ) ^ 2 - 1 := by nlinarith
    positivity
  have hfit := line_fit (a := a) (fit_ne_zero hn) hm.le (share_nonneg hn hm hd) (noise_share hn hm hd)
  have hshare : 3 / 5 * δ / m * (m * cov n (Nat.cast : ℕ → ℚ) Nat.cast) =
      3 / 5 * δ * cov n (Nat.cast : ℕ → ℚ) Nat.cast := by
    field_simp
  rw [polyfitSlope_range, ← mul_le_mul_iff_of_pos_right htt, ← hshare]
  calc |cov n Nat.cast (line a m d) / cov n (Nat.cast : ℕ → ℚ) Nat.cast - m| * cov n (Nat.cast : ℕ → ℚ) Nat.cast
      = |(cov n Nat.cast (line a m d) / cov n (Nat.cast : ℕ → ℚ) Nat.cast - m) *
          cov n (Nat.cast : ℕ → ℚ) Nat.cast| := by
        rw [abs_mul, abs_of_pos htt]
    _ = |cov n Nat.cast (line a m d) - m * cov n (Nat.cast : ℕ → ℚ) Nat.cast| := by
        rw [sub_mul, div_mul_cancel₀ _ htt.ne']
    _ ≤ 3 / 5 * δ / m * (m * cov n (Nat.cast : ℕ → ℚ) Nat.cast) := hfit

lemma trendless_jittered (hδ : 2 * δ ≤ m) : trendless ((List.range n).map (line a m d)) = false := by
  have hn' : (6 : ℚ) ≤ n := by exact_mod_cast hn
  have hsmall : 3 / 5 * δ / m ≤ 3 / 10 := by
    rw [div_le_iff₀ hm]
    linarith
  have htrend := line_trend (a := a) (fit_ne_zero hn) hm.le (share_nonneg hn hm hd) hsmall (noise_share hn hm hd)
  have hrises := line_rises (a := a) (fit_ne_zero hn) hm.le (share_nonneg hn hm hd) (by linarith) (noise_share hn hm hd)
  have hindex : ramp ℚ n = (List.range n).map Nat.cast := rfl
  simp only [trendless, List.length_map, List.length_range, hindex, comoment_range, decide_eq_false_iff_not]
  rintro ⟨-, hfalls | hweak⟩
  · exact absurd hfalls (not_lt.mpr hrises)
  · exact absurd hweak (not_lt.mpr htrend)

end Segment

section Warning

variable {F : LineFit} {x : Vec} {a m c δ limit horizonS : ℚ} {d : ℕ → ℚ}

lemma line_drop (j n : ℕ) : ((List.range (j + n)).map (line a m d)).drop j =
    (List.range n).map (line (a + m * j) m fun i => d (j + i)) := by
  rw [← List.map_drop, List.range_add, List.drop_left' (by simp), List.map_map]
  apply List.map_congr_left
  intro i _
  simp only [Function.comp_apply, line]
  push_cast
  ring

lemma fitSegment_jittered (hlen : defaultTail ≤ x.length)
    (hline : takeLast defaultTail x = (List.range defaultTail).map (line a m d)) :
    ∃ b j n, minFitN ≤ n ∧ j + n = defaultTail ∧
      fitSegment x defaultTail minFitN = (List.range n).map (line b m fun i => d (j + i)) := by
  obtain ⟨hlo, hhi⟩ := fitStart_bounds x (show minFitN ≤ defaultTail by decide) hlen
  rw [takeLast_eq_drop (by decide)] at hline
  simp only [defaultTail, minFitN] at hlen hline hlo hhi ⊢
  obtain ⟨j, hj⟩ := Nat.exists_eq_add_of_le hlo
  obtain ⟨n, hn⟩ : ∃ n, 24 = j + n := ⟨24 - j, by omega⟩
  refine ⟨a + m * j, j, n, by omega, by omega, ?_⟩
  rw [fitSegment, hj, ← List.drop_drop, hline, hn, line_drop]

variable (limit horizonS) in
lemma forecast_jittered (hF : F.Exact) (hm : 0 < m) (hd : ∀ k < defaultTail, |d k - c| ≤ δ) (hδ : 2 * δ ≤ m)
    (hlen : defaultTail ≤ x.length)
    (hline : takeLast defaultTail x = (List.range defaultTail).map (line a m d)) :
    let seg := fitSegment x defaultTail minFitN
    ∃ q, |q - m| ≤ 3 / 5 * δ ∧
      ((∃ eta, forecastToLimit F seg limit seg.length = some eta ∧ eta ≤ horizonS) ↔ 1 / 10 ^ 9 < q ∧
        x.getLastD 0 ≤ limit ∧ (limit - x.getLastD 0) * dtS ≤ min 3600 horizonS * q) ∧
      ∀ eta, forecastToLimit F seg limit seg.length = some eta → eta = (limit - x.getLastD 0) / q * dtS := by
  intro seg
  obtain ⟨b, j, n, hn, hj, hseg⟩ := fitSegment_jittered hlen hline
  have hnoise : ∀ i < n, |d (j + i) - c| ≤ δ := fun i hi => hd (j + i) (by omega)
  have hcur : seg.getLastD 0 = x.getLastD 0 := by
    have hpos : 0 < (fitSegment x defaultTail minFitN).length := by
      rw [hseg, List.length_map, List.length_range]
      exact lt_of_lt_of_le (by decide) hn
    rw [fitSegment, List.length_drop, Nat.sub_pos_iff_lt] at hpos
    exact getLastD_drop hpos
  have hslope := slope_jittered (a := b) hn hm hnoise
  have htrend := trendless_jittered (a := b) hn hm hnoise hδ
  have hlen' : 2 ≤ (fitSegment x defaultTail minFitN).length := by
    rw [hseg, List.length_map, List.length_range]
    exact le_trans (by decide) hn
  rw [← hseg, ← hF.slope _ hlen'] at hslope
  rw [← hseg, ← hF.trend _ hlen'] at htrend
  refine ⟨F.slope seg, hslope, ?_, fun eta heta => ?_⟩
  · rw [forecast_within, htrend, hcur]
    simp only [true_and]
  · rw [forecastToLimit_eq heta, hcur]

end Warning

end CausalEngine.Correlation
