import CausalEngine.Correlation.Detectors
import CausalEngine.Foundations.Moments
import CausalEngine.Foundations.OrderedMap
import CausalEngine.Foundations.Rounding

/-! The early warning: the working set of a pod is fitted by a line from the last upward change point on,
and the line is followed to the memory limit. -/

namespace CausalEngine.Correlation

open Foundations

def defaultTail : ℕ := 24
def minFitN : ℕ := 6

def fitStart (x : Vec) (tail minN : ℕ) : ℕ :=
  let n : ℤ := x.length
  let ups := (cusumOnsets x).filter fun o => o.direction = .up
  let lo := ups.getLast?.elim (n - tail) fun o => max (n - tail) o.idx
  (max 0 (min lo (n - minN))).toNat

def fitSegment (x : Vec) (tail minN : ℕ) : Vec := x.drop (fitStart x tail minN)

section Trend

def comoment (x y : Vec) : ℚ := dot (x.map (· - mean x)) (y.map (· - mean y))

-- in exact arithmetic: the correlation of the values with time is below one half. Where one of both does not vary it
-- is not a number, and not below
def trendless (x : Vec) : Bool :=
  let t := ramp ℚ x.length
  let tt := comoment t t
  let tx := comoment t x
  let xx := comoment x x
  tt * xx ≠ 0 ∧ (tx < 0 ∨ 4 * tx ^ 2 < tt * xx)

end Trend

/-- What `numpy` makes of equally spaced values: the slope of `polyfit` and the coefficient of `corrcoef` with time,
which is `none` where it is not a number. -/
structure LineFit where
  slope : Vec → ℚ
  corr : Vec → Option ℚ

namespace LineFit

def trendless (F : LineFit) (x : Vec) : Bool := (F.corr x).any fun r => r < 1 / 2

structure Exact (F : LineFit) : Prop where
  slope : ∀ x : Vec, 2 ≤ x.length → F.slope x = polyfitSlope x
  trend : ∀ x : Vec, 2 ≤ x.length → F.trendless x = Correlation.trendless x

end LineFit

variable (F : LineFit)

def forecastToLimit (x : Vec) (limit : ℚ) (tail : ℕ) : Option ℚ :=
  let seg := if tail ≤ x.length then takeLast tail x else x
  let slope := F.slope seg
  if slope ≤ 1 / 10 ^ 9 ∨ F.trendless seg = true then none
  else
    let samplesLeft := (limit - seg.getLastD 0) / slope
    let etaS := samplesLeft * dtS
    if samplesLeft < 0 ∨ 3600 < etaS then none else some etaS

structure Incipient where
  pod : String
  signal : String := "mem"
  kind : String := "incipient"
  shape : Shape := .leak
  etaS : ℚ
  value : ℤ
  limit : ℤ
  headroomFrac : ℚ
deriving DecidableEq

def incipientFinding (limits : OrderedMap String ℚ) (horizonS : ℚ) (tail : ℕ) (minFrac : ℚ) (pod : String)
    (x : Vec) : Option Incipient :=
  match limits.get? pod with
  | none => none
  | some limit =>
    if limit ≤ 0 ∨ x = [] then none
    else
      let cur := x.getLastD 0
      if cur < minFrac * limit then none
      else
        let seg := fitSegment x tail minFitN
        match forecastToLimit F seg limit seg.length with
        | none => none
        | some eta =>
          if horizonS < eta then none
          else some
            { pod := pod
              etaS := roundTo 1 eta
              value := roundHalfEven cur
              limit := roundHalfEven limit
              headroomFrac := roundTo 3 (max 0 (1 - cur / limit)) }

def incipientFindings (memVectors : OrderedMap String Vec) (limits : OrderedMap String ℚ) (horizonS : ℚ)
    (tail : ℕ) (minFrac : ℚ) : List Incipient :=
  (memVectors.entries.filterMap fun e => incipientFinding F limits horizonS tail minFrac e.1 e.2).insertionSort
    fun a b => a.etaS ≤ b.etaS

variable {F}

section Bounds

variable {x : Vec} {tail minN : ℕ}

variable (x) in
lemma fitStart_bounds (hm : minN ≤ tail) (hx : tail ≤ x.length) :
    x.length - tail ≤ fitStart x tail minN ∧ fitStart x tail minN ≤ x.length - minN := by
  rw [fitStart]
  cases ((cusumOnsets x).filter fun o => o.direction = .up).getLast? with
  | none =>
    simp only [Option.elim_none]
    omega
  | some o =>
    simp only [Option.elim_some]
    omega

lemma getLastD_drop {n : ℕ} (h : n < x.length) : (x.drop n).getLastD 0 = x.getLastD 0 := by
  have hne : x.drop n ≠ [] := by simpa using h
  rw [List.getLastD_eq_getLast?, List.getLastD_eq_getLast?, List.getLast?_drop, if_neg (by omega)]

end Bounds

section ExactFit

def exactFit : LineFit where
  slope := polyfitSlope
  corr x :=
    let t := ramp ℚ x.length
    let tx := comoment t x
    let spread := comoment t t * comoment x x
    if spread = 0 then none else some (sign tx * sqrtDown (min 1 (tx ^ 2 / spread)))

lemma comoment_self_nonneg (x : Vec) : 0 ≤ comoment x x := by
  rw [comoment, dot, List.zipWith_self]
  apply List.sum_nonneg
  intro v hv
  obtain ⟨w, -, rfl⟩ := List.mem_map.mp hv
  exact mul_self_nonneg w

lemma root_below_half {tx spread : ℚ} (hs : 0 < spread) :
    sign tx * sqrtDown (min 1 (tx ^ 2 / spread)) < 1 / 2 ↔ tx < 0 ∨ 4 * tx ^ 2 < spread := by
  have hroot := sqrtDown_nonneg (min 1 (tx ^ 2 / spread))
  have hhalf : sqrtDown (min 1 (tx ^ 2 / spread)) < 1 / 2 ↔ 4 * tx ^ 2 < spread := by
    rw [sqrtDown_lt_half (min_le_left _ _), min_lt_iff, div_lt_iff₀ hs, or_iff_right (by norm_num)]
    constructor <;> intro h <;> linarith
  rcases lt_trichotomy tx 0 with hneg | rfl | hpos
  · have hsign : sign tx = -1 := by rw [sign, if_neg (not_lt.mpr hneg.le), if_pos hneg]
    rw [hsign]
    exact iff_of_true (by push_cast; linarith) (Or.inl hneg)
  · exact iff_of_true (by simp [sign]) (Or.inr (by simpa using hs))
  · have hsign : sign tx = 1 := if_pos hpos
    rw [hsign, Int.cast_one, one_mul, hhalf, or_iff_right (not_lt.mpr hpos.le)]

lemma exactFit_exact : exactFit.Exact where
  slope _ _ := rfl
  trend x _ := by
    have hspread := mul_nonneg (comoment_self_nonneg (ramp ℚ x.length)) (comoment_self_nonneg x)
    simp only [LineFit.trendless, exactFit, trendless]
    rcases hspread.eq_or_lt with hzero | hpos
    · simp [← hzero]
    · rw [if_neg hpos.ne', Option.any_some]
      apply decide_eq_decide.mpr
      rw [root_below_half hpos]
      exact (and_iff_right hpos.ne').symm

end ExactFit

section Scaling

variable (c : ℚ) (x y : Vec)

lemma comoment_eq (h : x.length = y.length) : comoment x y = dot x y - x.sum * y.sum / x.length := by
  rw [comoment, dot_centred _ _ h, mean, mean, ← h]
  cases x with
  | nil => simp
  | cons a x =>
    have hne : ((a :: x).length : ℚ) ≠ 0 := by
      rw [List.length_cons]
      positivity
    field_simp
    ring

lemma comoment_ramp (n : ℕ) : comoment (ramp ℚ n) (ramp ℚ n) = n * ((n : ℚ) ^ 2 - 1) / 12 := by
  rw [comoment_eq _ _ rfl, dot_ramp, sum_ramp, ramp_length]
  cases n with
  | zero => simp
  | succ n =>
    have hne : ((n + 1 : ℕ) : ℚ) ≠ 0 := by positivity
    field_simp
    ring

lemma comoment_comm : comoment x y = comoment y x := dot_comm _ _

lemma mean_scale : mean (x.map (c * ·)) = c * mean x := by
  rw [mean, List.sum_map_mul_left, List.map_id', List.length_map, mul_div_assoc, mean]

lemma comoment_scale : comoment x (y.map (c * ·)) = c * comoment x y := by
  have hcentred : (y.map (c * ·)).map (· - mean (y.map (c * ·))) = (y.map (· - mean y)).map (c * ·) := by
    simp [mean_scale, mul_sub, Function.comp_def]
  rw [comoment, hcentred, dot_scale, comoment]

lemma polyfitSlope_comoment : polyfitSlope x =
    comoment (ramp ℚ x.length) x / comoment (ramp ℚ x.length) (ramp ℚ x.length) := by
  have hramp : ((List.range x.length).map fun i => (i : ℚ)) = ramp ℚ x.length :=
    (List.map_id' _).trans List.map_eq_flatMap.symm
  simp only [polyfitSlope, hramp, comoment, dot, List.zipWith_self]

lemma polyfitSlope_scale : polyfitSlope (x.map (c * ·)) = c * polyfitSlope x := by
  rw [polyfitSlope_comoment, polyfitSlope_comoment, List.length_map, comoment_scale, mul_div_assoc]

variable {c} in
lemma trendless_scale (hc : 0 < c) : trendless (x.map (c * ·)) = trendless x := by
  have hxx : comoment (x.map (c * ·)) (x.map (c * ·)) = c ^ 2 * comoment x x := by
    rw [comoment_scale, comoment_comm, comoment_scale]
    ring
  have h2 : (0 : ℚ) < c ^ 2 := by positivity
  simp only [trendless, List.length_map, comoment_scale, hxx]
  apply decide_eq_decide.mpr
  apply and_congr
  · rw [mul_left_comm, mul_ne_zero_iff]
    exact and_iff_right h2.ne'
  · apply or_congr ⟨fun h => neg_of_mul_neg_right h hc.le, mul_neg_of_pos_of_neg hc⟩
    rw [mul_pow, mul_left_comm, mul_left_comm (comoment (ramp ℚ x.length) (ramp ℚ x.length))]
    exact mul_lt_mul_iff_right₀ h2

end Scaling

lemma takeLast_length (x : Vec) : takeLast x.length x = x := by
  rw [takeLast]
  split_ifs <;> simp

lemma forecast_within {x : Vec} {limit horizonS : ℚ} :
    (∃ eta, forecastToLimit F x limit x.length = some eta ∧ eta ≤ horizonS) ↔ 1 / 10 ^ 9 < F.slope x ∧
      F.trendless x = false ∧ x.getLastD 0 ≤ limit ∧
        (limit - x.getLastD 0) * dtS ≤ min 3600 horizonS * F.slope x := by
  simp only [forecastToLimit, le_refl, if_true, takeLast_length]
  by_cases hs : 1 / 10 ^ 9 < F.slope x
  · have hpos : 0 < F.slope x := lt_trans (by norm_num) hs
    have heta : ∀ h : ℚ, (limit - x.getLastD 0) / F.slope x * dtS ≤ h ↔
        (limit - x.getLastD 0) * dtS ≤ h * F.slope x := by
      intro h
      rw [div_mul_eq_mul_div, div_le_iff₀ hpos]
    have hleft : 0 ≤ (limit - x.getLastD 0) / F.slope x ↔ x.getLastD 0 ≤ limit := by
      rw [le_div_iff₀ hpos, zero_mul, sub_nonneg]
    rw [← heta, ← hleft, le_min_iff]
    cases ht : F.trendless x with
    | true => simp
    | false =>
      simp only [not_le.mpr hs, Bool.false_eq_true, or_self, if_false, hs, true_and]
      split_ifs with hfar
      · apply iff_of_false (by simp)
        rintro ⟨h₁, h₂, -⟩
        exact hfar.elim (not_lt.mpr h₁) (not_lt.mpr h₂)
      · obtain ⟨h₁, h₂⟩ := not_or.mp hfar
        simp only [Option.some.injEq, exists_eq_left', not_lt.mp h₁, not_lt.mp h₂, true_and]
  · simp only [if_pos (Or.inl (not_lt.mp hs)), hs, false_and, reduceCtorEq, exists_false]

section Warned

variable {memVectors : OrderedMap String Vec} {limits : OrderedMap String ℚ} {horizonS minFrac : ℚ} {tail : ℕ}
  {pod : String}

lemma incipientFinding_isSome {x : Vec} : (incipientFinding F limits horizonS tail minFrac pod x).isSome = true ↔
    ∃ limit, limits.get? pod = some limit ∧ 0 < limit ∧ x ≠ [] ∧ minFrac * limit ≤ x.getLastD 0 ∧
      ∃ eta, forecastToLimit F (fitSegment x tail minFitN) limit (fitSegment x tail minFitN).length = some eta ∧
        eta ≤ horizonS := by
  rw [incipientFinding]
  cases limits.get? pod with
  | none => simp
  | some limit =>
    simp only [Option.some.injEq, exists_eq_left']
    split_ifs with hskip hfar
    · apply iff_of_false Bool.false_ne_true
      rintro ⟨hpos, hne, -⟩
      exact hskip.elim (not_le.mpr hpos) hne
    · apply iff_of_false Bool.false_ne_true
      rintro ⟨-, -, hnear, -⟩
      exact absurd hfar (not_lt.mpr hnear)
    · obtain ⟨hpos, hne⟩ := not_or.mp hskip
      simp only [not_le.mp hpos, ne_eq, hne, not_false_eq_true, not_lt.mp hfar, true_and]
      cases forecastToLimit F (fitSegment x tail minFitN) limit (fitSegment x tail minFitN).length with
      | none => simp
      | some eta =>
        dsimp only
        split_ifs with heta
        · simp [heta]
        · simpa using not_lt.mp heta

lemma incipientFinding_pod {x : Vec} {f : Incipient}
    (h : incipientFinding F limits horizonS tail minFrac pod x = some f) : f.pod = pod := by
  rw [incipientFinding] at h
  cases hl : limits.get? pod with
  | none => simp [hl] at h
  | some limit =>
    simp only [hl] at h
    split_ifs at h
    cases hf : forecastToLimit F (fitSegment x tail minFitN) limit (fitSegment x tail minFitN).length with
    | none => simp [hf] at h
    | some eta =>
      simp only [hf] at h
      split_ifs at h
      rw [← Option.some.inj h]

lemma warned_iff : (∃ f ∈ incipientFindings F memVectors limits horizonS tail minFrac, f.pod = pod) ↔
    ∃ x, memVectors.get? pod = some x ∧ (incipientFinding F limits horizonS tail minFrac pod x).isSome = true := by
  simp only [incipientFindings, List.mem_insertionSort, List.mem_filterMap, Option.isSome_iff_exists]
  constructor
  · rintro ⟨f, ⟨⟨p, x⟩, he, hf⟩, rfl⟩
    obtain rfl := incipientFinding_pod hf
    exact ⟨x, (memVectors.get?_eq_some _ x).mpr he, f, hf⟩
  · rintro ⟨x, hx, f, hf⟩
    exact ⟨f, ⟨(pod, x), (memVectors.get?_eq_some pod x).mp hx, hf⟩, incipientFinding_pod hf⟩

end Warned

end CausalEngine.Correlation
