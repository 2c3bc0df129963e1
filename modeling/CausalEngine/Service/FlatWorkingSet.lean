import CausalEngine.Correlation.HeldLevel
import CausalEngine.Service.Window

/-! A flat working set under the early warning. The line is fitted through what the grid covers, and a gap
counts as zero; so a series that never moves seems to climb when its samples come back after a gap. -/

namespace CausalEngine.Service

open Foundations Correlation

section Coverage

variable (cfg : ServiceConfig) (newest : ℚ) (pts : Points)

def coverage : List Bool := (grid cfg newest).map (covers (cfg.gridStepS / 2) cfg.gridStepS (pts.map Prod.fst))

structure Retained : Prop where
  fresh : newest - 2 * cfg.gridStepS ≤ lastTime pts
  seen : 12 ≤ (coverage cfg newest pts).count true

variable {cfg newest pts}

lemma toVector_flat {v : ℚ} {x : Vec} (hsorted : pts.Pairwise fun p q => p.1 ≤ q.1) (hne : pts ≠ [])
    (hflat : ∀ p ∈ pts, p.2 = v) :
    toVector cfg newest pts = some x ↔ Retained cfg newest pts ∧ x = heldLevel v (coverage cfg newest pts) := by
  have hstep := cfg.gridStep_pos
  have hcolumns : sampleHold (cfg.gridStepS / 2) cfg.gridStepS pts (grid cfg newest) =
      (coverage cfg newest pts).map fun c => if c then some v else none := by
    rw [sampleHold_flat (by linarith) (by linarith) hsorted hflat hne (grid_sorted newest), coverage, List.map_map]
    rfl
  have hcount : ((coverage cfg newest pts).map fun c => if c then some v else none).countP Option.isSome =
      (coverage cfg newest pts).count true := by
    rw [List.countP_map, List.count]
    congr 1
    funext c
    cases c <;> rfl
  have hlevel : ((coverage cfg newest pts).map fun c => if c then some v else none).map (fun c => c.getD 0) =
      heldLevel v (coverage cfg newest pts) := by
    rw [List.map_map, heldLevel]
    apply List.map_congr_left
    intro c _
    cases c <;> rfl
  rw [toVector, hcolumns]
  simp only [hcount, hlevel]
  split_ifs with hstale hseen
  · exact iff_of_false not_false fun h => absurd h.1.fresh (not_le.mpr hstale)
  · rw [Option.some.injEq]
    exact ⟨fun h => ⟨⟨not_lt.mp hstale, hseen⟩, h.symm⟩, fun h => h.2.symm⟩
  · exact iff_of_false not_false fun h => hseen h.1.seen

lemma coverage_length : (coverage cfg newest pts).length = gridLength := by
  rw [coverage, List.length_map, grid_length]

end Coverage

section Fit

variable {cfg : ServiceConfig} (v : ℚ) (cov : List Bool)

def fittedCoverage : List Bool := cov.drop (fitStart (heldLevel v cov) defaultTail minFitN)

lemma fitSegment_heldLevel : fitSegment (heldLevel v cov) defaultTail minFitN = heldLevel v (fittedCoverage v cov) :=
  heldLevel_drop v cov _

lemma fittedCoverage_drop (h : cov.length = gridLength) : ∃ lo ∈ List.range (defaultTail - minFitN + 1),
    fittedCoverage v cov = cov.drop (gridLength - defaultTail + lo) := by
  have hx : (heldLevel v cov).length = gridLength := (heldLevel_length v cov).trans h
  have htail : defaultTail ≤ (heldLevel v cov).length := by
    rw [hx]
    decide
  obtain ⟨hlo, hhi⟩ := fitStart_bounds (heldLevel v cov) (show minFitN ≤ defaultTail by decide) htail
  rw [hx] at hlo hhi
  refine ⟨fitStart (heldLevel v cov) defaultTail minFitN - (gridLength - defaultTail), ?_, ?_⟩
  · rw [List.mem_range]
    simp only [gridLength, defaultTail, minFitN] at hlo hhi ⊢
    omega
  · rw [fittedCoverage, Nat.add_sub_cancel' hlo]

variable {cov}

lemma fittedCoverage_length (h : cov.length = gridLength) : minFitN ≤ (fittedCoverage v cov).length := by
  obtain ⟨lo, hlo, hfit⟩ := fittedCoverage_drop v cov h
  rw [List.mem_range] at hlo
  rw [hfit, List.length_drop, h]
  simp only [gridLength, defaultTail, minFitN] at hlo ⊢
  omega

lemma getLastD_fitted (h : cov.length = gridLength) :
    (heldLevel v (fittedCoverage v cov)).getLastD 0 = if cov.getLastD false = true then v else 0 := by
  have hfit : 0 < minFitN := by decide
  have hlen := fittedCoverage_length v h
  rw [fittedCoverage, List.length_drop] at hlen
  rw [fittedCoverage, ← heldLevel_drop, getLastD_drop, getLastD_heldLevel]
  rw [heldLevel_length]
  omega

end Fit

section Condition

variable (cfg : ServiceConfig) (window : Window) (pod : String) (v limit : ℚ)

structure Eligible (pts lim : Points) : Prop where
  memRetained : Retained cfg (latest cfg window) pts
  limitRetained : Retained cfg (latest cfg window) lim
  memNow : (coverage cfg (latest cfg window) pts).getLastD false = true
  limitNow : (coverage cfg (latest cfg window) lim).getLastD false = true
  near : cfg.forecastMinFrac * limit ≤ v
  below : v ≤ limit

def EligibleAnd (P : List Bool → Prop) : Prop := ∃ pts lim, (raw cfg window cfg.forecastSignal).get? pod = some pts ∧
  (raw cfg window cfg.forecastLimit).get? pod = some lim ∧ Eligible cfg window v limit pts lim ∧
    P (fittedCoverage v (coverage cfg (latest cfg window) pts))

def FitClimb (F : LineFit) : Prop := EligibleAnd cfg window pod v limit fun cov =>
  Reaches F (limit - v) cfg.forecastHorizonS (heldLevel v cov)

def GapClimb : Prop := EligibleAnd cfg window pod v limit fun cov => Climbs v (limit - v) cfg.forecastHorizonS cov

def Flat (sig : String) (level : ℚ) : Prop :=
  ∀ e ∈ window.entries, seriesKey cfg e.1 = some (sig, pod) → ∀ s ∈ e.2, s.value = level

end Condition

section Warnings

variable {F : LineFit} {cfg : ServiceConfig} {window : Window} {pod sig : String} {v level limit : ℚ}

lemma raw_flat {pts : Points} (hflat : Flat cfg window pod sig level)
    (h : (raw cfg window sig).get? pod = some pts) :
    (pts.Pairwise fun p q => p.1 ≤ q.1) ∧ pts ≠ [] ∧ ∀ p ∈ pts, p.2 = level := by
  obtain ⟨e, he, hk, rfl, hlen⟩ := mem_raw h
  refine ⟨points_sorted e.2, ?_, ?_⟩
  · rintro hnil
    rw [hnil] at hlen
    exact absurd hlen (by decide)
  · intro p hp
    obtain ⟨s, hs, hv⟩ := value_of_point hp
    exact hv ▸ hflat e he hk s hs

lemma vector_flat (hflat : Flat cfg window pod sig level) {x : Vec} :
    (toVectors cfg (latest cfg window) (raw cfg window sig)).get? pod = some x ↔
      ∃ pts, (raw cfg window sig).get? pod = some pts ∧ Retained cfg (latest cfg window) pts ∧
        x = heldLevel level (coverage cfg (latest cfg window) pts) := by
  rw [toVectors, OrderedMap.get?_filterMapVals, Option.bind_eq_some_iff]
  apply exists_congr
  intro pts
  apply and_congr_right
  intro hpts
  obtain ⟨hsorted, hne, hvals⟩ := raw_flat hflat hpts
  exact toVector_flat hsorted hne hvals

lemma limit_flat (hlim : 0 < limit) (hlimit : Flat cfg window pod sig limit) {l : ℚ} :
    ((toVectors cfg (latest cfg window) (raw cfg window sig)).filterMapVals fun _ v =>
      if v ≠ [] ∧ 0 < v.getLastD 0 then some (v.getLastD 0) else none).get? pod = some l ↔
      l = limit ∧ ∃ lim, (raw cfg window sig).get? pod = some lim ∧ Retained cfg (latest cfg window) lim ∧
        (coverage cfg (latest cfg window) lim).getLastD false = true := by
  rw [OrderedMap.get?_filterMapVals, Option.bind_eq_some_iff]
  constructor
  · rintro ⟨y, hy, hl⟩
    obtain ⟨lim, hraw, hret, rfl⟩ := (vector_flat hlimit).mp hy
    rw [getLastD_heldLevel] at hl
    split_ifs at hl with hnow hpos hzero
    · exact ⟨(Option.some.inj hl).symm, lim, hraw, hret, hnow⟩
    · exact absurd hzero.2 (lt_irrefl 0)
  · rintro ⟨rfl, lim, hraw, hret, hnow⟩
    refine ⟨_, (vector_flat hlimit).mpr ⟨lim, hraw, hret, rfl⟩, ?_⟩
    rw [getLastD_heldLevel, if_pos hnow, if_pos]
    refine ⟨?_, hlim⟩
    rw [← List.length_pos_iff, heldLevel_length, coverage_length]
    decide

lemma forecast_flat {cov : List Bool} (hlen : cov.length = gridLength) (hfrac : 0 < cfg.forecastMinFrac)
    (hlim : 0 < limit) :
    (heldLevel v cov ≠ [] ∧ cfg.forecastMinFrac * limit ≤ (heldLevel v cov).getLastD 0 ∧
      ∃ eta, forecastToLimit F (fitSegment (heldLevel v cov) defaultTail minFitN) limit
        (fitSegment (heldLevel v cov) defaultTail minFitN).length = some eta ∧ eta ≤ cfg.forecastHorizonS) ↔
      cov.getLastD false = true ∧ cfg.forecastMinFrac * limit ≤ v ∧ v ≤ limit ∧
        Reaches F (limit - v) cfg.forecastHorizonS (heldLevel v (fittedCoverage v cov)) := by
  have hpos : 0 < cfg.forecastMinFrac * limit := mul_pos hfrac hlim
  have hne : heldLevel v cov ≠ [] := by
    rw [← List.length_pos_iff, heldLevel_length, hlen]
    decide
  rw [fitSegment_heldLevel, getLastD_heldLevel]
  by_cases hnow : cov.getLastD false = true
  · rw [if_pos hnow, forecast_reaches, getLastD_fitted v hlen, if_pos hnow]
    exact ⟨fun h => ⟨hnow, h.2⟩, fun h => ⟨hne, h.2⟩⟩
  · rw [if_neg hnow]
    exact iff_of_false (fun h => absurd h.2.1 (not_le.mpr hpos)) fun h => hnow h.1

lemma warned_flat_iff (hfrac : 0 < cfg.forecastMinFrac) (hlim : 0 < limit)
    (hmem : Flat cfg window pod cfg.forecastSignal v) (hlimit : Flat cfg window pod cfg.forecastLimit limit)
    (events : List Event) :
    (∃ f ∈ oomWarnings cfg F window events, f.pod = pod) ↔ FitClimb cfg window pod v limit F := by
  simp only [oomWarnings, vectors_of_wanted forecastSignal_wanted, vectors_of_wanted forecastLimit_wanted,
    Option.getD_some, warned_iff, incipientFinding_isSome, limit_flat hlim hlimit, vector_flat hmem]
  constructor
  · rintro ⟨x, ⟨pts, hpts, hret, rfl⟩, _, ⟨rfl, lim, hlim', hretl, hnowl⟩, -, hfit⟩
    obtain ⟨hnow, hnear, hbelow, hreaches⟩ := (forecast_flat coverage_length hfrac hlim).mp hfit
    exact ⟨pts, lim, hpts, hlim', ⟨hret, hretl, hnow, hnowl, hnear, hbelow⟩, hreaches⟩
  · rintro ⟨pts, lim, hpts, hlim', h, hreaches⟩
    refine ⟨_, ⟨pts, hpts, h.memRetained, rfl⟩, limit, ⟨rfl, lim, hlim', h.limitRetained, h.limitNow⟩, hlim, ?_⟩
    exact (forecast_flat coverage_length hfrac hlim).mpr ⟨h.memNow, h.near, h.below, hreaches⟩

lemma fitClimb_iff_gapClimb (hF : F.Exact) (hfrac : 0 < cfg.forecastMinFrac) (hlim : 0 < limit) :
    FitClimb cfg window pod v limit F ↔ GapClimb cfg window pod v limit := by
  refine exists_congr fun pts => exists_congr fun lim => and_congr_right fun _ => and_congr_right fun _ =>
    and_congr_right fun h => ?_
  exact reaches_iff_climbs hF ((mul_pos hfrac hlim).trans_le h.near)
    (le_trans (by decide) (fittedCoverage_length v coverage_length))

end Warnings

section Gaps

def flatPod : String := "cooling-monitor-5f-x1"

def flatWindow (times : List ℚ) : Window :=
  .ofList [("factory/cooling-monitor-5f-x1/mem", times.map fun t => ⟨some t, 900⟩),
    ("factory/cooling-monitor-5f-x1/mem_limit", times.map fun t => ⟨some t, 1000⟩)]

def steadyTimes : List ℚ := (List.range 13).map fun k : ℕ => 775 + 10 * (k : ℚ)

def gapTimes : List ℚ := [700, 705, 710, 715, 720, 725, 730, 735, 740, 885, 890, 895]

def gapCoverage : List Bool :=
  .replicate 139 false ++ .replicate 11 true ++ .replicate 27 false ++ .replicate 3 true

lemma flatWindow_flat (times : List ℚ) :
    Flat {} (flatWindow times) flatPod "mem" 900 ∧ Flat {} (flatWindow times) flatPod "mem_limit" 1000 := by
  have hkeys : seriesKey {} "factory/cooling-monitor-5f-x1/mem_limit" ≠ some ("mem", flatPod) ∧
      seriesKey {} "factory/cooling-monitor-5f-x1/mem" ≠ some ("mem_limit", flatPod) := by decide +kernel
  have hlevel : ∀ level, ∀ s ∈ times.map fun t => (⟨some t, level⟩ : Sample), s.value = level := by
    intro level s hs
    obtain ⟨t, -, rfl⟩ := List.mem_map.mp hs
    rfl
  constructor
  · intro e he hk
    have hmem := OrderedMap.mem_entries_ofList he
    simp only [List.mem_cons, List.not_mem_nil, or_false] at hmem
    rcases hmem with rfl | rfl
    · exact hlevel 900
    · exact absurd hk hkeys.1
  · intro e he hk
    have hmem := OrderedMap.mem_entries_ofList he
    simp only [List.mem_cons, List.not_mem_nil, or_false] at hmem
    rcases hmem with rfl | rfl
    · exact absurd hk hkeys.2
    · exact hlevel 1000

lemma steady_raw : (raw {} (flatWindow steadyTimes) "mem").get? flatPod = some (steadyTimes.map (·, 900)) := by
  decide +kernel

lemma steady_latest : latest {} (flatWindow steadyTimes) = 895 := by decide +kernel

lemma steady_still : ¬GapClimb {} (flatWindow steadyTimes) flatPod 900 1000 := by
  have hcov : coverage {} 895 (steadyTimes.map (·, 900)) = .replicate 154 false ++ .replicate 26 true := by
    decide +kernel
  have hfull : ∀ lo ∈ List.range (defaultTail - minFitN + 1),
      ((coverage {} 895 (steadyTimes.map (·, 900))).drop (gridLength - defaultTail + lo)).count true =
        ((coverage {} 895 (steadyTimes.map (·, 900))).drop (gridLength - defaultTail + lo)).length := by
    rw [hcov]
    decide +kernel
  rintro ⟨pts, lim, hpts, -, -, hclimbs⟩
  obtain rfl := Option.some.inj (steady_raw.symm.trans hpts)
  obtain ⟨lo, hlo, hfit⟩ := fittedCoverage_drop 900 (coverage {} 895 (steadyTimes.map (·, 900))) coverage_length
  rw [steady_latest, hfit] at hclimbs
  exact not_climbs_all _ _ _ _ (hfull lo hlo) hclimbs

lemma gap_raw : (raw {} (flatWindow gapTimes) "mem").get? flatPod = some (gapTimes.map (·, 900)) ∧
    (raw {} (flatWindow gapTimes) "mem_limit").get? flatPod = some (gapTimes.map (·, 1000)) := by decide +kernel

lemma gap_latest : latest {} (flatWindow gapTimes) = 895 := by decide +kernel

lemma gap_coverage (level : ℚ) : coverage {} 895 (gapTimes.map (·, level)) = gapCoverage := by
  have htimes : (gapTimes.map (·, level)).map Prod.fst = (gapTimes.map (·, 900)).map Prod.fst := by simp
  rw [coverage, htimes]
  decide +kernel

lemma gap_retained (level : ℚ) : Retained {} 895 (gapTimes.map (·, level)) where
  fresh := by
    have hlast : lastTime (gapTimes.map (·, level)) = 895 := rfl
    rw [hlast]
    decide +kernel
  seen := by
    rw [gap_coverage]
    decide +kernel

lemma gap_climb : GapClimb {} (flatWindow gapTimes) flatPod 900 1000 := by
  have hlate : ∀ lo ∈ List.range (defaultTail - minFitN + 1),
      Climbs 900 (1000 - 900) 900 (gapCoverage.drop (gridLength - defaultTail + lo)) := by decide +kernel
  obtain ⟨lo, hlo, hfit⟩ := fittedCoverage_drop 900 gapCoverage (by decide +kernel)
  have hnow : gapCoverage.getLastD false = true := by decide +kernel
  refine ⟨_, _, gap_raw.1, gap_raw.2, ⟨?_, ?_, ?_, ?_, ?_, ?_⟩, ?_⟩
  · exact gap_latest ▸ gap_retained 900
  · exact gap_latest ▸ gap_retained 1000
  · rwa [gap_latest, gap_coverage]
  · rwa [gap_latest, gap_coverage]
  · decide +kernel
  · decide +kernel
  · rw [gap_latest, gap_coverage, hfit]
    exact hlate lo hlo

end Gaps

end CausalEngine.Service
