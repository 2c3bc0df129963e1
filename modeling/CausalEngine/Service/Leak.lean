import CausalEngine.Correlation.JitteredClimb
import CausalEngine.Service.Resampling
import CausalEngine.Service.SharedNames

/-! A leak under the early warning, from the scrapes to the time that is left. The working set climbs steadily and is
read once in each of the last cells of the grid, not always at the same place in the cell. -/

namespace CausalEngine.Service

open Foundations Correlation

section Cells

variable (cfg : ServiceConfig) (newest : ℚ)

def cell (k : ℕ) : ℚ := newest - cfg.gridStepS * (defaultTail - 1 - k)

def leaked (base rate : ℚ) (e : ℕ → ℚ) : Points :=
  (List.range defaultTail).map fun k => (cell cfg newest k + e k, base + rate * (cell cfg newest k + e k))

/-- The series ends with one reading for each cell, of a level that climbs by `rate` a second. Readings are off the
instants of the grid by `c`, give or take `ε`. -/
structure Leaks (pts : Points) (base rate c ε : ℚ) (e : ℕ → ℚ) : Prop where
  ends : leaked cfg newest base rate e <:+ pts
  inCell : ∀ k < defaultTail, -(cfg.gridStepS / 2) < e k ∧ e k ≤ cfg.gridStepS / 2
  even : ∀ k < defaultTail, |e k - c| ≤ ε
  uneven : 2 * ε ≤ cfg.gridStepS

end Cells

section Columns

variable {cfg : ServiceConfig} {newest base rate c ε : ℚ} {pts : Points} {e : ℕ → ℚ}

lemma grid_drop :
    (grid cfg newest).drop (gridLength - defaultTail) = (List.range defaultTail).map (cell cfg newest) := by
  have hrange : List.range gridLength =
      List.range (gridLength - defaultTail) ++ (List.range defaultTail).map (gridLength - defaultTail + ·) := by
    rw [← List.range_add]
    rfl
  rw [grid, ← List.map_drop, hrange, List.drop_left' (by simp), List.map_map]
  apply List.map_congr_left
  intro k _
  simp only [Function.comp_apply, cell, gridLength, defaultTail]
  push_cast
  ring

variable (cfg newest) in
lemma cell_lt {i k : ℕ} (h : k < i) : cell cfg newest k + cfg.gridStepS ≤ cell cfg newest i := by
  have hstep := cfg.gridStep_pos
  have hik : (k : ℚ) + 1 ≤ i := by exact_mod_cast h
  have hmul := mul_le_mul_of_nonneg_left hik hstep.le
  simp only [cell]
  linarith

variable (cfg newest) in
lemma cell_mono {i k : ℕ} (h : i ≤ k) : cell cfg newest i ≤ cell cfg newest k := by
  have hstep := cfg.gridStep_pos
  rcases h.eq_or_lt with rfl | hlt
  · exact le_rfl
  · linarith [cell_lt cfg newest hlt]

lemma reading_iff (h : Leaks cfg newest pts base rate c ε e) {i k : ℕ} (hi : i < defaultTail) :
    cell cfg newest i + e i ≤ cell cfg newest k + cfg.gridStepS / 2 ↔ i ≤ k := by
  obtain ⟨hearly, hlate⟩ := h.inCell i hi
  constructor
  · intro hle
    by_contra hlt
    linarith [cell_lt cfg newest (not_le.mp hlt)]
  · intro hle
    linarith [cell_mono cfg newest hle]

lemma lastBefore_cell (h : Leaks cfg newest pts base rate c ε e) {k : ℕ} (hk : k < defaultTail) :
    lastBefore (cell cfg newest k + cfg.gridStepS / 2) pts =
      some (cell cfg newest k + e k, base + rate * (cell cfg newest k + e k)) := by
  have hfilter : (List.range defaultTail).filter
      (fun i => cell cfg newest i + e i ≤ cell cfg newest k + cfg.gridStepS / 2) = List.range (k + 1) := by
    obtain ⟨j, hj⟩ := Nat.exists_eq_add_of_lt hk
    have hown : ∀ i ∈ List.range (k + 1), cell cfg newest i + e i ≤ cell cfg newest k + cfg.gridStepS / 2 := by
      intro i hi
      have hi' := List.mem_range.mp hi
      exact (reading_iff h (by omega)).mpr (by omega)
    have hlater : ∀ i ∈ (List.range j).map (k + 1 + ·),
        ¬cell cfg newest i + e i ≤ cell cfg newest k + cfg.gridStepS / 2 := by
      intro i hi
      obtain ⟨l, hl, rfl⟩ := List.mem_map.mp hi
      have hl' := List.mem_range.mp hl
      rw [reading_iff h (by omega)]
      omega
    have hsplit : List.range defaultTail = List.range (k + 1) ++ (List.range j).map (k + 1 + ·) := by
      rw [← List.range_add, hj]
      congr 1
      omega
    rw [hsplit, List.filter_append, List.filter_eq_self.mpr (by simpa using hown),
      List.filter_eq_nil_iff.mpr (by simpa using hlater), List.append_nil]
  obtain ⟨old, rfl⟩ := h.ends
  have hreadings : ((leaked cfg newest base rate e).filter fun p => p.1 ≤ cell cfg newest k + cfg.gridStepS / 2) =
      (List.range (k + 1)).map fun i => (cell cfg newest i + e i, base + rate * (cell cfg newest i + e i)) := by
    rw [leaked, List.filter_map, ← hfilter]
    rfl
  rw [lastBefore, List.filter_append, hreadings, List.range_succ, List.map_append, ← List.append_assoc, List.map_cons,
    List.map_nil, List.getLast?_concat]

lemma column_cell (h : Leaks cfg newest pts base rate c ε e) {k : ℕ} (hk : k < defaultTail) :
    (((lastBefore (cell cfg newest k + cfg.gridStepS / 2) pts).or pts.head?).bind fun p =>
      if |p.1 - cell cfg newest k| ≤ cfg.gridStepS then some p.2 else none) =
        some (base + rate * (cell cfg newest k + e k)) := by
  obtain ⟨hearly, hlate⟩ := h.inCell k hk
  have hstep := cfg.gridStep_pos
  have hnear : |cell cfg newest k + e k - cell cfg newest k| ≤ cfg.gridStepS := by
    rw [add_sub_cancel_left, abs_le]
    constructor <;> linarith
  rw [lastBefore_cell h hk, Option.some_or, Option.bind_some, if_pos hnear]

lemma Leaks.ne_nil (h : Leaks cfg newest pts base rate c ε e) : pts ≠ [] := by
  rintro rfl
  simpa [leaked, defaultTail] using h.ends

lemma last_columns (hsorted : pts.Pairwise fun p q => p.1 ≤ q.1) (h : Leaks cfg newest pts base rate c ε e) :
    (sampleHold (cfg.gridStepS / 2) cfg.gridStepS pts (grid cfg newest)).drop (gridLength - defaultTail) =
      (List.range defaultTail).map fun k => some (base + rate * (cell cfg newest k + e k)) := by
  rw [sampleHold_cursor hsorted h.ne_nil (grid_sorted newest), ← List.map_drop, grid_drop, List.map_map]
  apply List.map_congr_left
  intro k hk
  exact column_cell h (List.mem_range.mp hk)

lemma cell_last : cell cfg newest (defaultTail - 1) = newest := by
  rw [cell, Nat.cast_sub (by decide), Nat.cast_one, sub_self, mul_zero, sub_zero]

lemma lastTime_leaked (h : Leaks cfg newest pts base rate c ε e) :
    lastTime pts = cell cfg newest (defaultTail - 1) + e (defaultTail - 1) := by
  obtain ⟨old, rfl⟩ := h.ends
  have hrange : List.range defaultTail = List.range (defaultTail - 1) ++ [defaultTail - 1] := rfl
  rw [lastTime, leaked, hrange, List.map_append, ← List.append_assoc, List.map_cons, List.map_nil,
    List.getLastD_concat]

/-- The vector of the series ends on the line, but for what the level climbs while a reading is off. -/
lemma leak_vector (hsorted : pts.Pairwise fun p q => p.1 ≤ q.1) (h : Leaks cfg newest pts base rate c ε e) :
    ∃ x, toVector cfg newest pts = some x ∧ x.length = gridLength ∧
      takeLast defaultTail x = (List.range defaultTail).map
        (line (base + rate * cell cfg newest 0) (rate * cfg.gridStepS) fun k => rate * e k) := by
  have hcolumns := last_columns hsorted h
  have hlength : (sampleHold (cfg.gridStepS / 2) cfg.gridStepS pts (grid cfg newest)).length = gridLength := by
    rw [sampleHold_cursor hsorted h.ne_nil (grid_sorted newest), List.length_map, grid_length]
  have hfresh : ¬lastTime pts < newest - 2 * cfg.gridStepS := by
    have hstep := cfg.gridStep_pos
    have hlast := (h.inCell (defaultTail - 1) (by decide)).1
    rw [lastTime_leaked h, cell_last]
    linarith
  have hseen : 12 ≤ (sampleHold (cfg.gridStepS / 2) cfg.gridStepS pts (grid cfg newest)).countP Option.isSome := by
    refine le_trans ?_ (List.drop_sublist (gridLength - defaultTail) _).countP_le
    have hall : ((List.range defaultTail).map fun k => some (base + rate * (cell cfg newest k + e k))).countP
        Option.isSome = defaultTail := by
      rw [List.countP_eq_length.mpr (by simp), List.length_map, List.length_range]
    rw [hcolumns, hall]
    decide
  refine ⟨_, by rw [toVector, if_neg hfresh]; exact if_pos hseen, by rw [List.length_map, hlength], ?_⟩
  rw [takeLast_eq_drop (by decide), List.length_map, hlength, ← List.map_drop, hcolumns, List.map_map]
  apply List.map_congr_left
  intro k _
  simp only [Function.comp_apply, Option.getD_some, line, cell]
  push_cast
  ring

end Columns

section Forecast

variable {F : LineFit} {cfg : ServiceConfig} {newest base rate c ε limit horizonS : ℚ} {pts : Points} {e : ℕ → ℚ}

lemma lastD_of_takeLast {x : Vec} {f : ℕ → ℚ} (hlen : defaultTail ≤ x.length)
    (h : takeLast defaultTail x = (List.range defaultTail).map f) : x.getLastD 0 = f (defaultTail - 1) := by
  have hrange : List.range defaultTail = List.range (defaultTail - 1) ++ [defaultTail - 1] := rfl
  rw [takeLast_eq_drop (by decide)] at h
  have htail : 0 < defaultTail := by decide
  rw [← getLastD_drop (n := x.length - defaultTail) (by omega), h, hrange, List.map_append, List.map_cons, List.map_nil,
    List.getLastD_concat]

variable (limit horizonS) in
lemma leak_forecast (hF : F.Exact) (hsorted : pts.Pairwise fun p q => p.1 ≤ q.1)
    (h : Leaks cfg newest pts base rate c ε e) (hrate : 0 < rate) : ∃ x q,
      toVector cfg newest pts = some x ∧ x ≠ [] ∧ x.getLastD 0 = base + rate * lastTime pts ∧
      |q - rate * cfg.gridStepS| ≤ 3 / 5 * (rate * ε) ∧
      ((∃ eta, forecastToLimit F (fitSegment x defaultTail minFitN) limit
        (fitSegment x defaultTail minFitN).length = some eta ∧ eta ≤ horizonS) ↔ 1 / 10 ^ 9 < q ∧
          base + rate * lastTime pts ≤ limit ∧
          (limit - (base + rate * lastTime pts)) * dtS ≤ min 3600 horizonS * q) ∧
      ∀ eta, forecastToLimit F (fitSegment x defaultTail minFitN) limit (fitSegment x defaultTail minFitN).length =
        some eta → eta = (limit - (base + rate * lastTime pts)) / q * dtS := by
  obtain ⟨x, hx, hlen, hline⟩ := leak_vector hsorted h
  have htail : defaultTail ≤ x.length := by
    rw [hlen]
    decide
  have hnow : x.getLastD 0 = base + rate * lastTime pts := by
    rw [lastD_of_takeLast htail hline, lastTime_leaked h]
    simp only [line, cell]
    push_cast
    ring
  have heven : ∀ k < defaultTail, |rate * e k - rate * c| ≤ rate * ε := by
    intro k hk
    rw [← mul_sub, abs_mul, abs_of_pos hrate]
    exact mul_le_mul_of_nonneg_left (h.even k hk) hrate.le
  have hsmall : 2 * (rate * ε) ≤ rate * cfg.gridStepS := by
    have huneven := mul_le_mul_of_nonneg_left h.uneven hrate.le
    linarith
  obtain ⟨q, hq, hwithin, heta⟩ :=
    forecast_jittered limit horizonS hF (mul_pos hrate cfg.gridStep_pos) heven hsmall htail hline
  rw [hnow] at hwithin heta
  exact ⟨x, q, hx, List.ne_nil_of_length_pos (by rw [hlen]; decide), hnow, hq, hwithin, heta⟩

end Forecast

section Warning

variable {cfg : ServiceConfig} {window : Window} {events : List Event} {pod : String} {limit : ℚ}

lemma limit_read (hpos : 0 < limit)
    (h : (podVector cfg window events cfg.forecastLimit pod).map (fun v => v.getLastD 0) = some limit) :
    ((toVectors cfg (latest cfg window) (raw cfg window cfg.forecastLimit)).filterMapVals fun _ v =>
      if v ≠ [] ∧ 0 < v.getLastD 0 then some (v.getLastD 0) else none).get? pod = some limit := by
  obtain ⟨v, hv, rfl⟩ := Option.map_eq_some_iff.mp h
  have hne : v ≠ [] := by
    rintro rfl
    exact absurd hpos (lt_irrefl 0)
  rw [podVector, vectors_of_wanted forecastLimit_wanted, Option.bind_some] at hv
  rw [OrderedMap.get?_filterMapVals, hv, Option.bind_some, if_pos ⟨hne, hpos⟩]

lemma forecast_error {eta q rate stepS ε left : ℚ} (hrate : 0 < rate) (heta : 0 ≤ eta)
    (hq : |q - rate * stepS| ≤ 3 / 5 * (rate * ε)) (h : eta * q = dtS * left * rate) :
    |eta * stepS - dtS * left| ≤ 3 / 5 * ε * eta := by
  have hscaled : (eta * stepS - dtS * left) * rate = -(eta * (q - rate * stepS)) := by
    rw [mul_sub, h]
    ring
  rw [← mul_le_mul_iff_of_pos_right hrate]
  calc |eta * stepS - dtS * left| * rate
      = |(eta * stepS - dtS * left) * rate| := by rw [abs_mul, abs_of_pos hrate]
    _ = eta * |q - rate * stepS| := by rw [hscaled, abs_neg, abs_mul, abs_of_nonneg heta]
    _ ≤ eta * (3 / 5 * (rate * ε)) := mul_le_mul_of_nonneg_left hq heta
    _ = 3 / 5 * ε * eta * rate := by ring

lemma leak_in_reach {q rate grid level horizonS : ℚ} (hrate : 0 < rate) (hgrid : 0 < grid) (hslow : rate * grid ≤ q)
    (hbelow : level ≤ limit) (hsoon : dtS * ((limit - level) / rate) ≤ horizonS * grid) :
    (limit - level) * dtS ≤ horizonS * q := by
  have hleft : 0 ≤ dtS * ((limit - level) / rate) :=
    mul_nonneg (by norm_num [dtS]) (div_nonneg (sub_nonneg.mpr hbelow) hrate.le)
  have hhorizon : 0 ≤ horizonS := nonneg_of_mul_nonneg_left (hleft.trans hsoon) hgrid
  calc (limit - level) * dtS
      = dtS * ((limit - level) / rate) * rate := by rw [mul_assoc, div_mul_cancel₀ _ hrate.ne', mul_comm]
    _ ≤ horizonS * grid * rate := mul_le_mul_of_nonneg_right hsoon hrate.le
    _ = horizonS * (rate * grid) := by ring
    _ ≤ horizonS * q := mul_le_mul_of_nonneg_left hslow hhorizon

lemma leak_eta_error {q rate stepS ε level : ℚ} (hrate : 0 < rate) (hqpos : 0 < q) (hbelow : level ≤ limit)
    (hq : |q - rate * stepS| ≤ 3 / 5 * (rate * ε)) :
    |(limit - level) / q * dtS * stepS - dtS * ((limit - level) / rate)| ≤ 3 / 5 * ε * ((limit - level) / q * dtS) := by
  have hnonneg : 0 ≤ (limit - level) / q * dtS :=
    mul_nonneg (div_nonneg (sub_nonneg.mpr hbelow) hqpos.le) (by norm_num [dtS])
  refine forecast_error hrate hnonneg hq ?_
  calc (limit - level) / q * dtS * q
      = dtS * (limit - level) := by rw [mul_comm _ dtS, mul_assoc, div_mul_cancel₀ _ hqpos.ne']
    _ = dtS * ((limit - level) / rate) * rate := by rw [mul_assoc, div_mul_cancel₀ _ hrate.ne']

end Warning

/-- A working set that climbs steadily towards its limit, read once in each of the last cells of the grid, is on the
list of early warnings as soon as it is past the fraction and the limit is near enough, and until it gets there; the
forecast is the time that is left, but for the unevenness of the readings and for a grid that is not the one of the
detectors. -/
theorem leak_foretold (F : LineFit) (hF : F.Exact) (cfg : ServiceConfig) (window : Window) (events : List Event)
    (pod : String) (pts : Points) (base rate c ε limit : ℚ) (e : ℕ → ℚ)
    (hmem : (raw cfg window cfg.forecastSignal).get? pod = some pts)
    (hleak : Leaks cfg (latest cfg window) pts base rate c ε e) (hrate : 0 < rate) (hpos : 0 < limit)
    (hlimit : (podVector cfg window events cfg.forecastLimit pod).map (fun v => v.getLastD 0) = some limit) :
    let level := base + rate * lastTime pts
    let left := (limit - level) / rate
    let horizonS := min 3600 cfg.forecastHorizonS
    (1 / 10 ^ 9 < rate * (cfg.gridStepS - 3 / 5 * ε) → cfg.forecastMinFrac * limit ≤ level → level ≤ limit →
      dtS * left ≤ horizonS * (cfg.gridStepS - 3 / 5 * ε) → ∃ f ∈ oomWarnings cfg F window events, f.pod = pod) ∧
    ∀ f ∈ oomWarnings cfg F window events, f.pod = pod → cfg.forecastMinFrac * limit ≤ level ∧ level ≤ limit ∧
      ∃ eta, f.etaS = roundTo 1 eta ∧ eta ≤ horizonS ∧ |eta * cfg.gridStepS - dtS * left| ≤ 3 / 5 * ε * eta := by
  intro level left horizonS
  have hstep := cfg.gridStep_pos
  obtain ⟨e', -, -, rfl, -⟩ := mem_raw hmem
  obtain ⟨x, q, hx, hne, hnow, hq, hwithin, heta⟩ :=
    leak_forecast limit cfg.forecastHorizonS hF (points_sorted e'.2) hleak hrate
  have hvector : (toVectors cfg (latest cfg window) (raw cfg window cfg.forecastSignal)).get? pod = some x := by
    rw [toVectors, OrderedMap.get?_filterMapVals, hmem, Option.bind_some, hx]
  have hread := limit_read hpos hlimit
  simp only [oomWarnings, vectors_of_wanted forecastSignal_wanted, vectors_of_wanted forecastLimit_wanted,
    Option.getD_some]
  constructor
  · intro hslope hnear hbelow hsoon
    have hslow : rate * (cfg.gridStepS - 3 / 5 * ε) ≤ q := by linarith [neg_le_of_abs_le hq]
    have hgrid : 0 < cfg.gridStepS - 3 / 5 * ε := by linarith [hleak.uneven]
    have hreach : (limit - level) * dtS ≤ horizonS * q := leak_in_reach hrate hgrid hslow hbelow hsoon
    exact warned_iff.mpr ⟨x, hvector, incipientFinding_isSome.mpr
      ⟨limit, hread, hpos, hne, hnow ▸ hnear, hwithin.mpr ⟨hslope.trans_le hslow, hbelow, hreach⟩⟩⟩
  · intro f hf hpod
    obtain ⟨⟨p, y⟩, he, hfy⟩ := List.mem_filterMap.mp ((List.mem_insertionSort _).mp hf)
    obtain rfl : p = pod := (incipientFinding_pod hfy).symm.trans hpod
    obtain rfl : y = x := Option.some.inj (((OrderedMap.get?_eq_some _ p y).mpr he).symm.trans hvector)
    obtain ⟨limit', hread', -, -, hnear, hsome⟩ :=
      incipientFinding_isSome.mp (Option.isSome_iff_exists.mpr ⟨f, hfy⟩)
    obtain rfl : limit' = limit := Option.some.inj (hread'.symm.trans hread)
    obtain ⟨eta, hforecast, hround⟩ := incipientFinding_etaS hfy hread
    obtain ⟨hslope, hbelow, hsoon⟩ := hwithin.mp hsome
    have hqpos : 0 < q := lt_trans (by norm_num) hslope
    have heta' := heta eta hforecast
    rw [hnow] at hnear
    refine ⟨hnear, hbelow, eta, hround, ?_, ?_⟩
    · rw [heta', div_mul_eq_mul_div, div_le_iff₀ hqpos]
      exact hsoon
    · rw [heta']
      exact leak_eta_error hrate hqpos hbelow hq

def lateEarly (k : ℕ) : ℚ := if k % 2 = 0 then 1 else -1

def leakTime (k : ℕ) : ℚ := 1000 - 5 * (23 - (k : ℚ)) + lateEarly k

def leakWindow : Window :=
  .ofList [("factory-edge/vision-qc-7d-x1/mem",
      (List.range 24).map fun k => ⟨some (leakTime k), -1500 + 2 * leakTime k⟩),
    ("factory-edge/vision-qc-7d-x1/mem_limit",
      (List.range 24).map fun k : ℕ => ⟨some (1000 - 5 * (23 - (k : ℚ))), 600⟩)]

theorem leak_foretold_uneven : ∃ f ∈ oomWarnings {} exactFit leakWindow [], f.pod = "vision-qc-7d-x1" ∧
    ∃ eta, f.etaS = roundTo 1 eta ∧ |eta * 5 - 5 * 51| ≤ 3 / 5 * eta := by
  have hlatest : latest {} leakWindow = 1000 := by decide +kernel
  have hlast : lastTime (leaked {} 1000 (-1500) 2 lateEarly) = 999 := by decide +kernel
  have hleak : Leaks {} 1000 (leaked {} 1000 (-1500) 2 lateEarly) (-1500) 2 0 1 lateEarly :=
    ⟨List.suffix_rfl, by decide +kernel, by decide +kernel, by decide +kernel⟩
  obtain ⟨hwarns, htells⟩ := leak_foretold exactFit exactFit_exact {} leakWindow [] "vision-qc-7d-x1"
    (leaked {} 1000 (-1500) 2 lateEarly) (-1500) 2 0 1 600 lateEarly (by decide +kernel) (by rwa [hlatest])
    (by norm_num) (by norm_num) (by decide +kernel)
  rw [hlast] at hwarns htells
  obtain ⟨f, hf, hpod⟩ := hwarns (by norm_num) (by norm_num) (by norm_num) (by norm_num [dtS])
  obtain ⟨-, -, eta, hround, -, herror⟩ := htells f hf hpod
  refine ⟨f, hf, hpod, eta, hround, ?_⟩
  calc |eta * 5 - 5 * 51|
      = |eta * 5 - dtS * ((600 - (-1500 + 2 * 999)) / 2)| := by norm_num [dtS]
    _ ≤ 3 / 5 * 1 * eta := herror
    _ = 3 / 5 * eta := by ring

end CausalEngine.Service
