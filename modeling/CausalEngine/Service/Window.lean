import CausalEngine.Correlation.Forecast
import CausalEngine.Foundations.SampleHold
import Mathlib.Data.Prod.Lex
import Mathlib.Data.String.Basic

/-! From the aggregator's window to the inputs of a pass: every series is resampled onto one shared grid of
wall-clock instants, and what the grid does not cover counts as zero. A sample carries the epoch seconds
that its time stamp parses to, if it does. -/

namespace CausalEngine.Service

open Foundations Correlation

lemma gridStep_default : (0 : ℚ) < 5 := by norm_num

structure ServiceConfig where
  signals : List String := ["psi_io", "psi_cpu", "psi_mem"]
  signalSources : List (String × String) := [("psi_io", "io_write"), ("psi_cpu", "cpu")]
  forecastSignal : String := "mem"
  forecastLimit : String := "mem_limit"
  forecastHorizonS : ℚ := 900
  forecastMinFrac : ℚ := 1 / 2
  gridStepS : ℚ := 5
  gridStep_pos : 0 < gridStepS := by exact gridStep_default

structure Sample where
  ts : Option ℚ
  value : ℚ

abbrev Window := OrderedMap String (List Sample)

structure Event where
  pod : String
  kind : Option String

abbrev Points := List (ℚ × ℚ)

def gridLength : ℕ := 180

section Inputs

variable (cfg : ServiceConfig)

def wanted : List String :=
  (cfg.signals ++ cfg.signalSources.map Prod.snd ++ [cfg.forecastSignal, cfg.forecastLimit]).dedup

def seriesKey (key : String) : Option (String × String) :=
  let parts := (key.toList.splitOn '/').map String.ofList
  if parts.length < 3 ∨ parts.getLastD "" ∉ wanted cfg then none
  else some (parts.getLastD "", parts.getD 1 "")

def points (samples : List Sample) : Points :=
  (samples.filterMap fun s => s.ts.map (·, s.value)).insertionSort fun a b => toLex a ≤ toLex b

structure Series where
  signal : String
  pod : String
  pts : Points

def seriesOf (key : String) (samples : List Sample) : Option Series :=
  (seriesKey cfg key).bind fun k =>
    if samples = [] then none
    else if 12 ≤ (points samples).length then some ⟨k.1, k.2, points samples⟩
    else none

def seriesList (window : Window) : List Series := window.entries.filterMap fun e => seriesOf cfg e.1 e.2

def lastTime (pts : Points) : ℚ := (pts.getLastD (0, 0)).1

def latest (window : Window) : ℚ := ((seriesList cfg window).map fun s => lastTime s.pts).foldl max 0

def raw (window : Window) (sig : String) : OrderedMap String Points :=
  .ofList (((seriesList cfg window).filter fun s => s.signal = sig).map fun s => (s.pod, s.pts))

def grid (newest : ℚ) : List ℚ :=
  (List.range gridLength).map fun k : ℕ => newest - cfg.gridStepS * (gridLength - 1 - k)

def toVector (newest : ℚ) (pts : Points) : Option Vec :=
  if lastTime pts < newest - 2 * cfg.gridStepS then none
  else
    let columns := sampleHold (cfg.gridStepS / 2) cfg.gridStepS pts (grid cfg newest)
    if 12 ≤ columns.countP Option.isSome then some (columns.map fun c => c.getD 0) else none

def toVectors (newest : ℚ) (perPod : OrderedMap String Points) : OrderedMap String Vec :=
  perPod.filterMapVals fun _ => toVector cfg newest

def buildInputs (window : Window) (events : List Event) :
    OrderedMap String (OrderedMap String Vec) × List String :=
  (.ofList ((wanted cfg).map fun sig => (sig, toVectors cfg (latest cfg window) (raw cfg window sig))),
    ((events.filter fun e => e.kind = some "anomaly_candidate").map Event.pod).dedup.insertionSort (· ≤ ·))

def oomWarnings (F : LineFit) (window : Window) (events : List Event) : List Incipient :=
  let vecBySig := (buildInputs cfg window events).1
  let memVec := (vecBySig.get? cfg.forecastSignal).getD .empty
  let limVec := (vecBySig.get? cfg.forecastLimit).getD .empty
  let limits := limVec.filterMapVals fun _ v => if v ≠ [] ∧ 0 < v.getLastD 0 then some (v.getLastD 0) else none
  incipientFindings F memVec limits cfg.forecastHorizonS defaultTail cfg.forecastMinFrac

section Reading

variable {cfg} {window : Window} {events : List Event} {sig pod : String}

lemma vectors_of_wanted (h : sig ∈ wanted cfg) : (buildInputs cfg window events).1.get? sig =
    some (toVectors cfg (latest cfg window) (raw cfg window sig)) := by
  rw [buildInputs, OrderedMap.get?_eq_some, OrderedMap.entries_ofList]
  · exact List.mem_map_of_mem h
  · simp only [List.map_map, Function.comp_def, List.map_id']
    exact List.nodup_dedup _

lemma forecastSignal_wanted : cfg.forecastSignal ∈ wanted cfg := by simp [wanted]

lemma forecastLimit_wanted : cfg.forecastLimit ∈ wanted cfg := by simp [wanted]

lemma mem_raw {pts : Points} (h : (raw cfg window sig).get? pod = some pts) :
    ∃ e ∈ window.entries, seriesKey cfg e.1 = some (sig, pod) ∧ pts = points e.2 ∧ 12 ≤ pts.length := by
  have hmem := OrderedMap.mem_entries_ofList ((OrderedMap.get?_eq_some _ pod pts).mp h)
  obtain ⟨s, hs, heq⟩ := List.mem_map.mp hmem
  obtain ⟨rfl, rfl⟩ := Prod.mk.inj heq
  obtain ⟨hs, hsig⟩ := List.mem_filter.mp hs
  obtain ⟨e, he, hseries⟩ := List.mem_filterMap.mp hs
  obtain ⟨k, hk, hseries⟩ := Option.bind_eq_some_iff.mp hseries
  split_ifs at hseries with hnil hlen
  obtain rfl := Option.some.inj hseries
  obtain rfl : k.1 = sig := of_decide_eq_true hsig
  exact ⟨e, he, hk, rfl, hlen⟩

lemma points_sorted (samples : List Sample) : (points samples).Pairwise fun p q => p.1 ≤ q.1 := by
  have hs : (points samples).Pairwise fun a b => toLex a ≤ toLex b := by
    apply List.pairwise_insertionSort
  refine hs.imp ?_
  intro a b hab
  rcases Prod.Lex.toLex_le_toLex.mp hab with h | ⟨h, -⟩
  · exact h.le
  · exact h.le

lemma value_of_point {samples : List Sample} {p : ℚ × ℚ} (h : p ∈ points samples) :
    ∃ s ∈ samples, s.value = p.2 := by
  obtain ⟨s, hs, hp⟩ := List.mem_filterMap.mp ((List.mem_insertionSort _).mp h)
  obtain ⟨t, -, rfl⟩ := Option.map_eq_some_iff.mp hp
  exact ⟨s, hs, rfl⟩

lemma grid_sorted (newest : ℚ) : (grid cfg newest).Pairwise (· ≤ ·) := by
  apply List.pairwise_map.mpr
  refine List.pairwise_lt_range.imp ?_
  intro a b hab
  have hstep := cfg.gridStep_pos
  have hab' : (a : ℚ) ≤ b := by exact_mod_cast hab.le
  have hmul := mul_le_mul_of_nonneg_left hab' hstep.le
  linarith

lemma grid_length (newest : ℚ) : (grid cfg newest).length = gridLength := by simp [grid]

end Reading

end Inputs

end CausalEngine.Service
