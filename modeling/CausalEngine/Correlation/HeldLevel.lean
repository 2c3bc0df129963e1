import CausalEngine.Correlation.Forecast

/-! The early warning on a level that never moves but is not always covered. A line through such a signal
is decided by how many of the fitted columns are covered and how late they lie. -/

namespace CausalEngine.Correlation

open Foundations

def heldLevel (v : ℚ) (cov : List Bool) : Vec := cov.map fun c => if c then v else 0

def tilt (cov : List Bool) : ℚ := 2 * dot (ramp ℚ cov.length) (marks ℚ cov) - (cov.length - 1) * cov.count true

/-- The covered columns lie so late that a level makes up for its distance to the limit in time. -/
structure Climbs (v gap horizonS : ℚ) (cov : List Bool) : Prop where
  rises : cov.length * ((cov.length : ℚ) ^ 2 - 1) < 10 ^ 9 * (6 * v * tilt cov)
  trend : ((cov.length : ℚ) ^ 2 - 1) * (cov.count true * (cov.length - cov.count true)) ≤ 12 * tilt cov ^ 2
  soon : gap * dtS * (cov.length * ((cov.length : ℚ) ^ 2 - 1)) ≤ min 3600 horizonS * (6 * v * tilt cov)

instance (v gap horizonS : ℚ) (cov : List Bool) : Decidable (Climbs v gap horizonS cov) :=
  decidable_of_iff
    (cov.length * ((cov.length : ℚ) ^ 2 - 1) < 10 ^ 9 * (6 * v * tilt cov) ∧
      ((cov.length : ℚ) ^ 2 - 1) * (cov.count true * (cov.length - cov.count true)) ≤ 12 * tilt cov ^ 2 ∧
      gap * dtS * (cov.length * ((cov.length : ℚ) ^ 2 - 1)) ≤ min 3600 horizonS * (6 * v * tilt cov))
    ⟨fun h => ⟨h.1, h.2.1, h.2.2⟩, fun h => ⟨h.rises, h.trend, h.soon⟩⟩

section Level

variable (v : ℚ) (cov : List Bool)

lemma heldLevel_length : (heldLevel v cov).length = cov.length := List.length_map _

lemma heldLevel_marks : heldLevel v cov = (marks ℚ cov).map (v * ·) := by
  rw [heldLevel, marks, List.map_map]
  apply List.map_congr_left
  intro c _
  cases c <;> simp

lemma heldLevel_drop (n : ℕ) : (heldLevel v cov).drop n = heldLevel v (cov.drop n) := List.map_drop.symm

lemma getLastD_heldLevel : (heldLevel v cov).getLastD 0 = if cov.getLastD false = true then v else 0 := by
  rw [heldLevel, List.getLastD_eq_getLast?, List.getLastD_eq_getLast?, List.getLast?_map]
  cases cov.getLast? with
  | none => rfl
  | some c => rfl

end Level

section Line

variable (cov : List Bool)

lemma comoment_tilt : comoment (ramp ℚ cov.length) (marks ℚ cov) = tilt cov / 2 := by
  rw [comoment_eq _ _ ((ramp_length _).trans (marks_length cov).symm), sum_ramp, sum_marks, ramp_length, tilt]
  cases cov with
  | nil => simp [dot, ramp]
  | cons c cov =>
    have hne : ((c :: cov).length : ℚ) ≠ 0 := by
      rw [List.length_cons]
      positivity
    field_simp

lemma comoment_marks :
    comoment (marks ℚ cov) (marks ℚ cov) * cov.length = cov.count true * (cov.length - cov.count true) := by
  rw [comoment_eq _ _ rfl, dot_marks, sum_marks, marks_length]
  cases cov with
  | nil => simp
  | cons c cov =>
    have hne : ((c :: cov).length : ℚ) ≠ 0 := by
      rw [List.length_cons]
      positivity
    field_simp

lemma polyfitSlope_marks :
    polyfitSlope (marks ℚ cov) = 6 * tilt cov / (cov.length * ((cov.length : ℚ) ^ 2 - 1)) := by
  have hsix : tilt cov * 12 = 2 * (6 * tilt cov) := by ring
  rw [polyfitSlope_comoment, marks_length, comoment_tilt, comoment_ramp, div_div_div_eq, hsix,
    mul_div_mul_left _ _ two_ne_zero]

lemma trendless_marks (h : 0 < tilt cov) : trendless (marks ℚ cov) = false ↔
    ((cov.length : ℚ) ^ 2 - 1) * (cov.count true * (cov.length - cov.count true)) ≤ 12 * tilt cov ^ 2 := by
  have hspread : comoment (ramp ℚ cov.length) (ramp ℚ cov.length) * comoment (marks ℚ cov) (marks ℚ cov) =
      ((cov.length : ℚ) ^ 2 - 1) * (cov.count true * (cov.length - cov.count true)) / 12 := by
    rw [comoment_ramp, ← comoment_marks]
    ring
  have htilt : ¬tilt cov / 2 < 0 := by linarith
  simp only [trendless, marks_length, hspread, comoment_tilt, htilt, false_or, decide_eq_false_iff_not, not_and, not_lt]
  constructor
  · intro hle
    by_cases hflat : ((cov.length : ℚ) ^ 2 - 1) * (cov.count true * (cov.length - cov.count true)) / 12 = 0
    · have hsq := sq_nonneg (tilt cov)
      linarith
    · have hpos := hle hflat
      linarith
  · intro hle hne
    linarith

lemma tilt_all (h : cov.count true = cov.length) : tilt cov = 0 := by
  have hones := dot_ones (ramp ℚ cov.length)
  rw [ramp_length] at hones
  rw [tilt, marks_all cov h, hones, sum_ramp, h]
  ring

lemma not_climbs_all (v gap horizonS : ℚ) (h : cov.count true = cov.length) : ¬Climbs v gap horizonS cov := by
  intro hc
  have hrises := hc.rises
  rw [tilt_all cov h, mul_zero, mul_zero] at hrises
  have hnat : 0 ≤ cov.length * ((cov.length : ℤ) ^ 2 - 1) := by
    rcases Nat.eq_zero_or_pos cov.length with h0 | h0
    · simp [h0]
    · have h1 : (1 : ℤ) ≤ cov.length := by exact_mod_cast h0
      nlinarith
  have hrat : (0 : ℚ) ≤ cov.length * ((cov.length : ℚ) ^ 2 - 1) := by exact_mod_cast hnat
  exact absurd hrises (not_lt.mpr hrat)

end Line

section Fitted

variable {F : LineFit} {limit gap horizonS : ℚ}

structure Reaches (F : LineFit) (gap horizonS : ℚ) (x : Vec) : Prop where
  rises : 1 / 10 ^ 9 < F.slope x
  trend : F.trendless x = false
  soon : gap * dtS ≤ min 3600 horizonS * F.slope x

lemma forecast_reaches {x : Vec} : (∃ eta, forecastToLimit F x limit x.length = some eta ∧ eta ≤ horizonS) ↔
    x.getLastD 0 ≤ limit ∧ Reaches F (limit - x.getLastD 0) horizonS x := by
  rw [forecast_within]
  constructor
  · rintro ⟨hrises, htrend, hbelow, hsoon⟩
    exact ⟨hbelow, hrises, htrend, hsoon⟩
  · rintro ⟨hbelow, hrises, htrend, hsoon⟩
    exact ⟨hrises, htrend, hbelow, hsoon⟩

lemma reaches_iff_climbs (hF : F.Exact) {v : ℚ} {cov : List Bool} (hv : 0 < v) (hn : 2 ≤ cov.length) :
    Reaches F gap horizonS (heldLevel v cov) ↔ Climbs v gap horizonS cov := by
  have hn' : (2 : ℚ) ≤ cov.length := by exact_mod_cast hn
  have hD : 0 < (cov.length : ℚ) * ((cov.length : ℚ) ^ 2 - 1) := by nlinarith
  have hlen : 2 ≤ (heldLevel v cov).length := (heldLevel_length v cov).symm ▸ hn
  have hslope : F.slope (heldLevel v cov) = 6 * v * tilt cov / (cov.length * ((cov.length : ℚ) ^ 2 - 1)) := by
    rw [hF.slope _ hlen, heldLevel_marks, polyfitSlope_scale, polyfitSlope_marks]
    ring
  have htrend : F.trendless (heldLevel v cov) = trendless (marks ℚ cov) := by
    rw [hF.trend _ hlen, heldLevel_marks, trendless_scale _ hv]
  have hrises : 1 / 10 ^ 9 < 6 * v * tilt cov / (cov.length * ((cov.length : ℚ) ^ 2 - 1)) ↔
      cov.length * ((cov.length : ℚ) ^ 2 - 1) < 10 ^ 9 * (6 * v * tilt cov) := by
    rw [div_lt_div_iff₀ (by positivity) hD, one_mul, mul_comm (10 ^ 9)]
  have hlate : cov.length * ((cov.length : ℚ) ^ 2 - 1) < 10 ^ 9 * (6 * v * tilt cov) → 0 < tilt cov := by
    intro h
    have h6 : 0 < 6 * v * tilt cov := by linarith
    exact pos_of_mul_pos_right h6 (by positivity)
  constructor
  · rintro ⟨h₁, h₂, h₃⟩
    rw [hslope, hrises] at h₁
    rw [hslope, ← mul_div_assoc, le_div_iff₀ hD] at h₃
    exact ⟨h₁, (trendless_marks cov (hlate h₁)).mp (htrend ▸ h₂), h₃⟩
  · rintro ⟨h₁, h₂, h₃⟩
    refine ⟨?_, ?_, ?_⟩
    · rwa [hslope, hrises]
    · rw [htrend]
      exact (trendless_marks cov (hlate h₁)).mpr h₂
    · rwa [hslope, ← mul_div_assoc, le_div_iff₀ hD]

end Fitted

end CausalEngine.Correlation
