import CausalEngine.Correlation.Forecast

/-! The early warning on a straight climb. Whatever came before, the fitted segment lies on the line, so
its slope is that of the climb and the warning comes exactly when the limit is within reach. -/

namespace CausalEngine.Correlation

open Foundations

def climb (a m : ℚ) (n : ℕ) : Vec := (ramp ℚ n).map fun t => a + m * t

section Line

variable (a m : ℚ) (n : ℕ)

lemma climb_length : (climb a m n).length = n := by
  rw [climb, List.length_map, ramp_length]

lemma climb_drop {j : ℕ} (hj : j ≤ n) : (climb a m n).drop j = climb (a + m * j) m (n - j) := by
  obtain ⟨k, rfl⟩ := Nat.exists_eq_add_of_le hj
  rw [climb, climb, ramp, ramp, List.map_map, List.map_map, ← List.map_drop, List.range_add, List.drop_left' (by simp),
    List.map_map, Nat.add_sub_cancel_left]
  apply List.map_congr_left
  intro i _
  simp only [Function.comp_apply]
  push_cast
  ring

lemma mean_shift (c : ℚ) {x : Vec} (hx : x ≠ []) : mean (x.map (c + ·)) = c + mean x := by
  have hne : (x.length : ℚ) ≠ 0 := by
    rw [ne_eq, Nat.cast_eq_zero, List.length_eq_zero_iff]
    exact hx
  rw [mean, List.sum_map_add, List.map_const', List.sum_replicate, List.map_id', List.length_map, mean, nsmul_eq_mul]
  field_simp

lemma comoment_shift (c : ℚ) (x y : Vec) : comoment x (y.map (c + ·)) = comoment x y := by
  cases y with
  | nil => rfl
  | cons b y =>
    rw [comoment, comoment, mean_shift c (List.cons_ne_nil b y), List.map_map]
    simp only [Function.comp_def, add_sub_add_left_eq_sub]

lemma comoment_climb (x : Vec) : comoment x (climb a m n) = m * comoment x (ramp ℚ n) := by
  have hmap : climb a m n = ((ramp ℚ n).map (m * ·)).map (a + ·) := by
    rw [climb, List.map_map]
    rfl
  rw [hmap, comoment_shift, comoment_scale]

variable {n}

lemma comoment_ramp_pos (hn : 2 ≤ n) : 0 < comoment (ramp ℚ n) (ramp ℚ n) := by
  have hn' : (2 : ℚ) ≤ n := by exact_mod_cast hn
  have hsq : (0 : ℚ) < (n : ℚ) ^ 2 - 1 := by nlinarith
  rw [comoment_ramp]
  positivity

lemma polyfitSlope_climb (hn : 2 ≤ n) : polyfitSlope (climb a m n) = m := by
  rw [polyfitSlope_comoment, climb_length, comoment_climb, mul_div_cancel_right₀ _ (comoment_ramp_pos hn).ne']

variable {m} in
lemma trendless_climb (hm : 0 < m) (hn : 2 ≤ n) : trendless (climb a m n) = false := by
  have htt := comoment_ramp_pos hn
  have hxx : comoment (climb a m n) (climb a m n) = m ^ 2 * comoment (ramp ℚ n) (ramp ℚ n) := by
    rw [comoment_climb, comoment_comm, comoment_climb]
    ring
  have hnonneg : ¬m * comoment (ramp ℚ n) (ramp ℚ n) < 0 := not_lt.mpr (by positivity)
  have hperfect : ¬4 * (m * comoment (ramp ℚ n) (ramp ℚ n)) ^ 2 <
      comoment (ramp ℚ n) (ramp ℚ n) * (m ^ 2 * comoment (ramp ℚ n) (ramp ℚ n)) := by
    have hsq : 0 ≤ (m * comoment (ramp ℚ n) (ramp ℚ n)) ^ 2 := by positivity
    rw [not_lt]
    calc comoment (ramp ℚ n) (ramp ℚ n) * (m ^ 2 * comoment (ramp ℚ n) (ramp ℚ n))
        = (m * comoment (ramp ℚ n) (ramp ℚ n)) ^ 2 := by ring
      _ ≤ 4 * (m * comoment (ramp ℚ n) (ramp ℚ n)) ^ 2 := by linarith
  simp only [trendless, climb_length, hxx, comoment_climb, hnonneg, hperfect, or_self, and_false, decide_false]

end Line

section Warning

variable {F : LineFit} {x : Vec} {a m limit horizonS minFrac : ℚ}

lemma takeLast_eq_drop {n : ℕ} (hn : 0 < n) : takeLast n x = x.drop (x.length - n) := if_neg hn.ne'

lemma fitSegment_climb (hlen : defaultTail ≤ x.length) (hline : takeLast defaultTail x = climb a m defaultTail) :
    ∃ b n, 2 ≤ n ∧ n ≤ x.length ∧ fitSegment x defaultTail minFitN = climb b m n := by
  obtain ⟨hlo, hhi⟩ := fitStart_bounds x (show minFitN ≤ defaultTail by decide) hlen
  rw [takeLast_eq_drop (by decide)] at hline
  simp only [defaultTail, minFitN] at hlen hline hlo hhi ⊢
  obtain ⟨j, hj⟩ := Nat.exists_eq_add_of_le hlo
  refine ⟨a + m * j, 24 - j, by omega, by omega, ?_⟩
  rw [fitSegment, hj, ← List.drop_drop, hline, climb_drop a m 24 (by omega)]

lemma getLastD_fitSegment {n : ℕ} {b : ℚ} (hn : 2 ≤ n)
    (hseg : fitSegment x defaultTail minFitN = climb b m n) : (climb b m n).getLastD 0 = x.getLastD 0 := by
  have hpos : 0 < (fitSegment x defaultTail minFitN).length := by
    rw [hseg, climb_length]
    omega
  rw [fitSegment, List.length_drop] at hpos
  rw [← hseg, fitSegment, getLastD_drop (by omega)]

lemma forecastToLimit_eq {eta : ℚ} (h : forecastToLimit F x limit x.length = some eta) :
    eta = (limit - x.getLastD 0) / F.slope x * dtS := by
  simp only [forecastToLimit, le_refl, if_true, takeLast_length] at h
  split_ifs at h
  exact (Option.some.inj h).symm

lemma incipientFinding_etaS {limits : OrderedMap String ℚ} {tail : ℕ} {pod : String} {f : Incipient}
    (h : incipientFinding F limits horizonS tail minFrac pod x = some f) (hl : limits.get? pod = some limit) :
    ∃ eta, forecastToLimit F (fitSegment x tail minFitN) limit (fitSegment x tail minFitN).length = some eta ∧
      f.etaS = roundTo 1 eta := by
  simp only [incipientFinding, hl] at h
  split_ifs at h
  cases hf : forecastToLimit F (fitSegment x tail minFitN) limit (fitSegment x tail minFitN).length with
  | none => simp [hf] at h
  | some eta =>
    simp only [hf] at h
    split_ifs at h
    exact ⟨eta, rfl, by rw [← Option.some.inj h]⟩

lemma forecast_climb (hF : F.Exact) (limit horizonS : ℚ) (hm : 1 / 10 ^ 9 < m) (hlen : defaultTail ≤ x.length)
    (hline : takeLast defaultTail x = climb a m defaultTail) :
    let seg := fitSegment x defaultTail minFitN
    ((∃ eta, forecastToLimit F seg limit seg.length = some eta ∧ eta ≤ horizonS) ↔
      0 ≤ 5 * (limit - x.getLastD 0) / m ∧ 5 * (limit - x.getLastD 0) / m ≤ min horizonS 3600) ∧
    ∀ eta, forecastToLimit F seg limit seg.length = some eta → eta = 5 * (limit - x.getLastD 0) / m := by
  intro seg
  have hpos : 0 < m := lt_trans (by norm_num) hm
  obtain ⟨b, n, hn, hnx, hseg⟩ := fitSegment_climb hlen hline
  have hcur := getLastD_fitSegment hn hseg
  have hlen' : 2 ≤ (climb b m n).length := (climb_length b m n).symm ▸ hn
  have hslope : F.slope (climb b m n) = m := (hF.slope _ hlen').trans (polyfitSlope_climb b m hn)
  have htrend : F.trendless (climb b m n) = false := (hF.trend _ hlen').trans (trendless_climb b hpos hn)
  constructor
  · simp only [seg, hseg]
    rw [forecast_within, hslope, htrend, hcur, le_div_iff₀ hpos, div_le_iff₀ hpos, zero_mul,
      min_comm horizonS, dtS]
    simp only [hm, true_and]
    constructor
    · exact fun ⟨hle, heta⟩ => ⟨by linarith, by linarith⟩
    · exact fun ⟨hle, heta⟩ => ⟨by linarith, by linarith⟩
  · intro eta heta
    simp only [seg, hseg] at heta
    rw [forecastToLimit_eq heta, hslope, hcur, dtS]
    ring

end Warning

theorem incipient_exact_on_climb (F : LineFit) (hF : F.Exact) (memVectors : OrderedMap String Vec)
    (limits : OrderedMap String ℚ) (pod : String) (x : Vec) (a m limit horizonS minFrac : ℚ)
    (hx : memVectors.get? pod = some x) (hl : limits.get? pod = some limit) (hpos : 0 < limit)
    (hlen : defaultTail ≤ x.length) (hm : 1 / 10 ^ 9 < m) (hline : takeLast defaultTail x = climb a m defaultTail) :
    let cur := x.getLastD 0
    let eta := 5 * (limit - cur) / m
    let findings := incipientFindings F memVectors limits horizonS defaultTail minFrac
    ((∃ f ∈ findings, f.pod = pod) ↔ minFrac * limit ≤ cur ∧ 0 ≤ eta ∧ eta ≤ min horizonS 3600) ∧
    ∀ f ∈ findings, f.pod = pod → f.etaS = roundTo 1 eta := by
  intro cur eta findings
  obtain ⟨hwithin, heta⟩ := forecast_climb hF limit horizonS hm hlen hline
  have hne : x ≠ [] := by
    rintro rfl
    simp [defaultTail] at hlen
  constructor
  · rw [warned_iff]
    simp only [hx, Option.some.injEq, exists_eq_left', incipientFinding_isSome, hl, hpos, hne, true_and, ne_eq,
      not_false_eq_true, hwithin]
    rfl
  · intro f hf hp
    obtain ⟨⟨p, y⟩, he, hfy⟩ := List.mem_filterMap.mp ((List.mem_insertionSort _).mp hf)
    obtain rfl : p = pod := (incipientFinding_pod hfy).symm.trans hp
    obtain rfl : y = x := Option.some.inj (((memVectors.get?_eq_some p y).mpr he).symm.trans hx)
    obtain ⟨eta', hforecast, hround⟩ := incipientFinding_etaS hfy hl
    rw [hround, heta eta' hforecast]

theorem incipient_exact_on_climb_leak :
    let x : Vec := [90, 0, 120, 110, 40] ++ climb 100 5 defaultTail
    ∃ f ∈ incipientFindings exactFit (.ofList [("leaky", x)]) (.ofList [("leaky", 300)]) 900 defaultTail (6 / 10),
      f.pod = "leaky" ∧ f.etaS = roundTo 1 85 := by
  intro x
  have hlast : x.getLastD 0 = 215 := by decide +kernel
  obtain ⟨hwarn, heta⟩ := incipient_exact_on_climb exactFit exactFit_exact (.ofList [("leaky", x)])
    (.ofList [("leaky", 300)]) "leaky" x 100 5 300 900 (6 / 10) rfl rfl (by norm_num) (by decide) (by norm_num)
    (by decide +kernel)
  rw [hlast] at hwarn heta
  obtain ⟨f, hf, hp⟩ := hwarn.mpr (by norm_num)
  refine ⟨f, hf, hp, ?_⟩
  rw [heta f hf hp]
  norm_num

end CausalEngine.Correlation
