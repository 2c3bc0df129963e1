import CausalEngine.Service.Window

/-! Resampling against its purpose, a column that carries what was last known at its instant. The cursor
starts on the first sample without testing it, so a series can reach back a step before it began. -/

namespace CausalEngine.Service

open Foundations Correlation

variable (cfg : ServiceConfig)

/-- What is known at an instant: the last sample up to half a step after it, if it is at most a step away. -/
def knownValue (pts : Points) (g : ℚ) : ℚ :=
  (lastBefore (g + cfg.gridStepS / 2) pts).elim 0 fun p => if |p.1 - g| ≤ cfg.gridStepS then p.2 else 0

/-- No column lies between half a step and a step before the first sample, unless that sample is zero. -/
def NoEarlyColumn (newest : ℚ) (pts : Points) : Prop :=
  ∀ p ∈ pts.head?, ∀ g ∈ grid cfg newest, g + cfg.gridStepS / 2 < p.1 → p.1 ≤ g + cfg.gridStepS → p.2 = 0

section Columns

variable {cfg} {newest : ℚ} {pts : Points}

lemma cursor_known_iff {h : ℚ × ℚ} {rest : Points} (hsorted : (h :: rest).Pairwise fun p q => p.1 ≤ q.1) (g : ℚ) :
    ((((lastBefore (g + cfg.gridStepS / 2) (h :: rest)).or (h :: rest).head?).bind fun p =>
      if |p.1 - g| ≤ cfg.gridStepS then some p.2 else none).getD 0 = knownValue cfg (h :: rest) g) ↔
        (g + cfg.gridStepS / 2 < h.1 → h.1 ≤ g + cfg.gridStepS → h.2 = 0) := by
  have hstep := cfg.gridStep_pos
  rw [knownValue]
  cases hl : lastBefore (g + cfg.gridStepS / 2) (h :: rest) with
  | some p =>
    have hmem : p ∈ (h :: rest).filter fun p => p.1 ≤ g + cfg.gridStepS / 2 := List.mem_of_getLast? hl
    obtain ⟨hp, hle⟩ := List.mem_filter.mp hmem
    have hfirst : h.1 ≤ g + cfg.gridStepS / 2 := by
      rcases List.mem_cons.mp hp with rfl | hp
      · exact of_decide_eq_true hle
      · exact ((List.pairwise_cons.mp hsorted).1 p hp).trans (of_decide_eq_true hle)
    refine iff_of_true ?_ fun hlt => absurd hlt (not_lt.mpr hfirst)
    rw [Option.some_or, Option.bind_some, Option.elim_some]
    split_ifs <;> rfl
  | none =>
    have hlate : g + cfg.gridStepS / 2 < h.1 := by
      have hnil := List.getLast?_eq_none_iff.mp hl
      have hnone := List.filter_eq_nil_iff.mp hnil h List.mem_cons_self
      simpa using hnone
    have hnear : |h.1 - g| ≤ cfg.gridStepS ↔ h.1 ≤ g + cfg.gridStepS := by
      rw [abs_of_pos (by linarith)]
      constructor <;> intro hle <;> linarith
    simp only [Option.none_or, List.head?_cons, Option.bind_some, Option.elim_none, hlate, true_imp_iff, hnear]
    split_ifs with hle
    · simp [hle]
    · simp [hle]

lemma toVector_eq {x : Vec} (h : toVector cfg newest pts = some x) :
    x = (sampleHold (cfg.gridStepS / 2) cfg.gridStepS pts (grid cfg newest)).map fun c => c.getD 0 := by
  simp only [toVector] at h
  split_ifs at h
  exact (Option.some.inj h).symm

lemma toVector_length {x : Vec} (hne : pts ≠ []) (hsorted : pts.Pairwise fun p q => p.1 ≤ q.1)
    (h : toVector cfg newest pts = some x) : x.length = gridLength := by
  rw [toVector_eq h, sampleHold_cursor hsorted hne (grid_sorted newest), List.length_map, List.length_map, grid_length]

lemma toVector_known_iff {x : Vec} (hne : pts ≠ []) (hsorted : pts.Pairwise fun p q => p.1 ≤ q.1)
    (h : toVector cfg newest pts = some x) :
    x = (grid cfg newest).map (knownValue cfg pts) ↔ NoEarlyColumn cfg newest pts := by
  obtain ⟨p, rest, rfl⟩ := List.exists_cons_of_ne_nil hne
  rw [toVector_eq h, sampleHold_cursor hsorted hne (grid_sorted newest), List.map_map, List.map_inj_left, NoEarlyColumn]
  simp only [List.head?_cons, Option.mem_some_iff, forall_eq']
  exact forall₂_congr fun g _ => cursor_known_iff hsorted g

lemma series_of_vector {window : Window} {events : List Event} {sig pod : String} {vectors : OrderedMap String Vec}
    {x : Vec} (hv : (buildInputs cfg window events).1.get? sig = some vectors) (hx : vectors.get? pod = some x) :
    ∃ pts, (raw cfg window sig).get? pod = some pts ∧ toVector cfg (latest cfg window) pts = some x := by
  have hsig : sig ∈ wanted cfg := by
    have he := OrderedMap.mem_entries_ofList ((OrderedMap.get?_eq_some _ sig vectors).mp hv)
    obtain ⟨s, hs, heq⟩ := List.mem_map.mp he
    exact (Prod.mk.inj heq).1 ▸ hs
  rw [vectors_of_wanted hsig] at hv
  obtain rfl := Option.some.inj hv
  rw [toVectors, OrderedMap.get?_filterMapVals] at hx
  exact Option.bind_eq_some_iff.mp hx

lemma vector_length {window : Window} {events : List Event} {sig pod : String} {vectors : OrderedMap String Vec}
    {x : Vec} (hv : (buildInputs cfg window events).1.get? sig = some vectors) (hx : vectors.get? pod = some x) :
    x.length = gridLength := by
  obtain ⟨pts, hpts, hx⟩ := series_of_vector hv hx
  obtain ⟨_, _, _, rfl, hlen⟩ := mem_raw hpts
  exact toVector_length (List.ne_nil_of_length_pos (lt_of_lt_of_le (by norm_num) hlen)) (points_sorted _) hx

end Columns

/-- A returned series carries what is known at each instant exactly when no column falls just before it. -/
theorem resampling_causal_iff (window : Window) (events : List Event) (sig pod : String)
    (vectors : OrderedMap String Vec) (x : Vec) (hv : (buildInputs cfg window events).1.get? sig = some vectors)
    (hx : vectors.get? pod = some x) :
    x.length = gridLength ∧ ∃ samples, (raw cfg window sig).get? pod = some (points samples) ∧
      (∃ key, (key, samples) ∈ window.entries ∧ seriesKey cfg key = some (sig, pod)) ∧
      (x = (grid cfg (latest cfg window)).map (knownValue cfg (points samples)) ↔
        NoEarlyColumn cfg (latest cfg window) (points samples)) := by
  obtain ⟨pts, hpts, hx⟩ := series_of_vector hv hx
  obtain ⟨⟨key, samples⟩, he, hkey, rfl, hlen⟩ := mem_raw hpts
  have hne : points samples ≠ [] := List.ne_nil_of_length_pos (lt_of_lt_of_le (by norm_num) hlen)
  exact ⟨toVector_length hne (points_sorted _) hx, samples, hpts, ⟨key, he, hkey⟩,
    toVector_known_iff hne (points_sorted _) hx⟩

def scrapes (times : List ℚ) : Window :=
  .ofList [("factory/timescaledb-7c-z9/psi_io", times.map fun t => ⟨some t, 1⟩)]

def shiftedTimes : List ℚ := [941, 945, 950, 955, 960, 965, 970, 975, 980, 985, 990, 995, 1000]

def alignedTimes : List ℚ := [940, 945, 950, 955, 960, 965, 970, 975, 980, 985, 990, 995, 1000]

theorem resampling_causal_iff_shifted : ∃ vectors x,
    (buildInputs {} (scrapes shiftedTimes) []).1.get? "psi_io" = some vectors ∧
      vectors.get? "timescaledb-7c-z9" = some x ∧ x.length = gridLength ∧
      ∃ samples, (raw {} (scrapes shiftedTimes) "psi_io").get? "timescaledb-7c-z9" = some (points samples) ∧
        x = (grid {} 1000).map (knownValue {} (points samples)) := by
  obtain ⟨x, hx⟩ := Option.isSome_iff_exists.mp (by decide +kernel :
    ((toVectors {} (latest {} (scrapes shiftedTimes)) (raw {} (scrapes shiftedTimes) "psi_io")).get?
      "timescaledb-7c-z9").isSome = true)
  have hv : (buildInputs {} (scrapes shiftedTimes) []).1.get? "psi_io" = _ := vectors_of_wanted (by decide)
  obtain ⟨hlen, samples, hraw, -, hiff⟩ := resampling_causal_iff {} _ [] _ _ _ _ hv hx
  have hpts : points samples = shiftedTimes.map (·, 1) :=
    Option.some.inj (hraw.symm.trans (by decide +kernel))
  have hlatest : latest {} (scrapes shiftedTimes) = 1000 := by decide +kernel
  rw [hlatest] at hiff
  refine ⟨_, x, hv, hx, hlen, samples, hraw, hiff.mpr ?_⟩
  rw [hpts]
  have hnone : ∀ g ∈ grid {} 1000, ¬(g + 5 / 2 < 941 ∧ 941 ≤ g + 5) := by decide +kernel
  intro p hp g hg hlt hle
  obtain rfl := Option.some.inj hp
  exact (hnone g hg ⟨hlt, hle⟩).elim

theorem resampling_reaches_back : ∃ vectors x,
    (buildInputs {} (scrapes alignedTimes) []).1.get? "psi_io" = some vectors ∧
      vectors.get? "timescaledb-7c-z9" = some x ∧ (grid {} 1000).getD 166 0 = 935 ∧ x.getD 166 0 = 1 ∧
      (∀ p ∈ points (alignedTimes.map fun t => ⟨some t, 1⟩), 935 + 5 / 2 < p.1) ∧
      x ≠ (grid {} 1000).map (knownValue {} (points (alignedTimes.map fun t => ⟨some t, 1⟩))) := by
  obtain ⟨x, hx, hcol⟩ := Option.map_eq_some_iff.mp (by decide +kernel :
    ((toVectors {} (latest {} (scrapes alignedTimes)) (raw {} (scrapes alignedTimes) "psi_io")).get?
      "timescaledb-7c-z9").map (fun x => x.getD 166 0) = some 1)
  have hv : (buildInputs {} (scrapes alignedTimes) []).1.get? "psi_io" = _ := vectors_of_wanted (by decide)
  refine ⟨_, x, hv, hx, by decide +kernel, hcol, by decide +kernel, ?_⟩
  intro heq
  have hknown : ((grid {} 1000).map (knownValue {} (points (alignedTimes.map fun t => ⟨some t, 1⟩)))).getD 166 0 =
      0 := by
    decide +kernel
  rw [heq, hknown] at hcol
  exact zero_ne_one hcol

end CausalEngine.Service
