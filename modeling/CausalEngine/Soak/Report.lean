import CausalEngine.Aggregator.Alerts
import CausalEngine.Api.Verdict
import CausalEngine.Foundations.Grouping

/-! The recorder of soak runs: one flat sample of the verdict at each tick, and at the end a summary of the samples of
each scenario. -/

namespace CausalEngine.Soak

open Foundations Api

inductive Scenario
  | s1 | s2 | s3 | s5
deriving DecidableEq

namespace Scenario

def name : Scenario → String
  | .s1 => "S1"
  | .s2 => "S2"
  | .s3 => "S3"
  | .s5 => "S5"

def expect : Scenario → Option String
  | .s1 => some "cooling-monitor"
  | .s2 => some "log-archiver"
  | .s3 => some "analytics-batch"
  | .s5 => none

end Scenario

structure Tick where
  epoch : ℚ
  phase : String
  cycle : String
  graph : Option Verdict

structure Sample where
  epoch : ℚ
  phase : String
  cycle : String
  root : String
  oomEtaS : Option ℚ

def Tick.accused (t : Tick) : Option String := (t.graph.bind fun g => g.root.head?).map fun c => c.pod

def append (t : Tick) : Sample where
  epoch := t.epoch
  phase := t.phase
  cycle := t.cycle
  root := t.accused.getD ""
  oomEtaS := (t.graph.bind fun g => g.incipient.argmin fun f => f.etaS).map fun f => f.etaS

structure Rollup where
  cycles : ℕ
  samples : ℕ
  detectRate : ℚ
  correctRate : ℚ
  dominantRoot : String
  dominantN : ℕ
  oomCycleRate : ℚ
  minOomEtaS : Option ℚ
  medianTtdS : Option ℚ

section Rollup

variable (s : Scenario) (obs : List Sample)

def rate (k n : ℕ) : ℚ := if n = 0 then 0 else roundTo 3 (k / n)

def cyclesOf : List String := Memory.sortedSet (obs.map Sample.cycle)

def withRoot : List Sample := obs.filter fun r => r.root ≠ ""

-- no root is the text of one null character
def correct : List Sample := obs.filter fun r => r.root = s.expect.getD "\x00"

def rootCounts : OrderedMap String ℕ := groupInto Sample.root (addTo fun _ => 1) .empty (withRoot obs)

def dominant : String × ℕ := ((rootCounts obs).entries.argmax Prod.snd).getD ("—", 0)

def oomCycles : List String := ((obs.filter fun r => r.oomEtaS.isSome).map Sample.cycle).dedup

def detected (r : Sample) : Bool := if s = .s5 then r.oomEtaS.isSome else r.root ≠ ""

def ttd (cycle : String) : Option ℚ :=
  let cr := obs.filter fun r => r.cycle = cycle
  match (cr.map Sample.epoch).argmin id, ((cr.filter (detected s)).map Sample.epoch).argmin id with
  | some t0, some hit => some (hit - t0)
  | _, _ => none

def ttds : List ℚ := (cyclesOf obs).filterMap (ttd s obs)

def rollupOf : Rollup where
  cycles := (cyclesOf obs).length
  samples := obs.length
  detectRate := rate (withRoot obs).length obs.length
  correctRate := rate (correct s obs).length obs.length
  dominantRoot := (dominant obs).1
  dominantN := (dominant obs).2
  oomCycleRate := rate (oomCycles obs).length (cyclesOf obs).length
  minOomEtaS := (obs.filterMap Sample.oomEtaS).argmin id
  medianTtdS := if ttds s obs = [] then none else some (Aggregator.upperMedian (ttds s obs))

def report (rows : List Sample) : Rollup := rollupOf s (rows.filter fun r => r.phase = s.name)

end Rollup

section Rates

variable {k m n : ℕ}

lemma rate_nonneg (k n : ℕ) : 0 ≤ rate k n := by
  rw [rate]
  split_ifs
  · exact le_rfl
  · exact (by norm_num : (0 : ℚ) ≤ ((0 : ℤ) : ℚ) / 10 ^ 3).trans (le_roundTo 0 (by simp; positivity))

lemma rate_le_one (h : k ≤ n) : rate k n ≤ 1 := by
  rw [rate]
  split_ifs with hn
  · exact zero_le_one
  · have hpos : (0 : ℚ) < n := by exact_mod_cast Nat.pos_of_ne_zero hn
    have hle : (k : ℚ) / n ≤ ((1000 : ℤ) : ℚ) / 10 ^ 3 := by
      rw [div_le_iff₀ hpos]
      norm_num
      exact_mod_cast h
    exact (roundTo_le 1000 hle).trans (by norm_num)

lemma rate_mono (h : k ≤ m) (n : ℕ) : rate k n ≤ rate m n := by
  rw [rate, rate]
  split_ifs
  · exact le_rfl
  · exact roundTo_mono 3 (by gcongr)

end Rates

section Dominant

variable {obs : List Sample}

def blames (obs : List Sample) (root : String) : ℕ := obs.countP fun r => r.root = root

lemma countP_withRoot {root : String} (h : root ≠ "") :
    (withRoot obs).countP (fun r => r.root = root) = blames obs root := by
  rw [withRoot, List.countP_filter, blames]
  apply List.countP_congr
  intro r _
  simp only [Bool.and_eq_true, decide_eq_true_eq]
  exact ⟨And.left, fun hr => ⟨hr, hr ▸ h⟩⟩

lemma get?_rootCounts (root : String) : (rootCounts obs).get? root =
    if ∃ r ∈ withRoot obs, r.root = root then some ((withRoot obs).countP fun r => r.root = root) else none := by
  rw [rootCounts, get?_sums, List.map_const', List.sum_replicate, smul_eq_mul, mul_one, List.countP_eq_length_filter]

lemma mem_rootCounts {e : String × ℕ} (h : e ∈ (rootCounts obs).entries) : e.1 ≠ "" ∧ e.2 = blames obs e.1 := by
  have hget := (OrderedMap.get?_eq_some (rootCounts obs) e.1 e.2).mpr h
  rw [get?_rootCounts] at hget
  split_ifs at hget with hnamed
  obtain ⟨r, hr, hroot⟩ := hnamed
  have hne : e.1 ≠ "" := by
    rw [← hroot]
    simpa using (List.mem_filter.mp hr).2
  rw [countP_withRoot hne, Option.some.injEq] at hget
  exact ⟨hne, hget.symm⟩

lemma rootCounts_mem {root : String} (h : root ≠ "") (hpos : 0 < blames obs root) :
    (root, blames obs root) ∈ (rootCounts obs).entries := by
  rw [← countP_withRoot h, List.countP_pos_iff] at hpos
  obtain ⟨r, hr, hroot⟩ := hpos
  rw [← OrderedMap.get?_eq_some, get?_rootCounts, if_pos ⟨r, hr, by simpa using hroot⟩, countP_withRoot h]

variable (obs) in
lemma blames_le_dominant {root : String} (h : root ≠ "") : blames obs root ≤ (dominant obs).2 := by
  rcases Nat.eq_zero_or_pos (blames obs root) with hzero | hpos
  · rw [hzero]
    exact Nat.zero_le _
  · have hmem := rootCounts_mem h hpos
    cases htop : (rootCounts obs).entries.argmax Prod.snd with
    | none =>
      rw [List.argmax_eq_none.mp htop] at hmem
      exact absurd hmem List.not_mem_nil
    | some top =>
      rw [dominant, htop]
      exact List.le_of_mem_argmax hmem htop

variable (obs) in
lemma dominant_blames (h : 0 < (dominant obs).2) :
    (dominant obs).1 ≠ "" ∧ (dominant obs).2 = blames obs (dominant obs).1 := by
  rw [dominant] at h ⊢
  cases htop : (rootCounts obs).entries.argmax Prod.snd with
  | none => simp [htop] at h
  | some top => exact mem_rootCounts (List.argmax_mem htop)

variable (obs) in
lemma blames_add_le {root root' : String} (hne : root ≠ root') (h : root ≠ "") (h' : root' ≠ "") :
    blames obs root + blames obs root' ≤ (withRoot obs).length := by
  rw [← countP_withRoot h, ← countP_withRoot h', List.length_eq_countP_add_countP fun r => r.root = root]
  refine Nat.add_le_add_left (List.countP_mono_left fun r _ hr => ?_) _
  rw [decide_eq_true_eq] at hr
  simpa [hr] using hne.symm

lemma dominant_of_majority {root : String} (h : root ≠ "") (hmost : (withRoot obs).length < 2 * blames obs root) :
    (dominant obs).1 = root := by
  by_contra hne
  have hle := blames_le_dominant obs h
  obtain ⟨hnamed, hcount⟩ := dominant_blames obs (by omega)
  have hsum := blames_add_le obs hne hnamed h
  omega

end Dominant

section Detection

variable {s : Scenario} {obs : List Sample}

lemma ttd_nonneg {c : String} {t : ℚ} (h : ttd s obs c = some t) : 0 ≤ t := by
  rw [ttd] at h
  split at h
  · next t0 hit hfirst hhit =>
    obtain ⟨r, hr, hepoch⟩ := List.mem_map.mp (List.argmin_mem hhit)
    have hle := List.le_of_mem_argmin (List.mem_map_of_mem (f := Sample.epoch) (List.mem_filter.mp hr).1) hfirst
    rw [hepoch, id, id] at hle
    rw [← Option.some.inj h]
    linarith
  · cases h

lemma correct_le (s : Scenario) (obs : List Sample) : (correct s obs).length ≤ (withRoot obs).length := by
  rw [correct, withRoot, ← List.countP_eq_length_filter, ← List.countP_eq_length_filter]
  apply List.countP_mono_left
  intro r _ hr
  rw [decide_eq_true_eq] at hr
  rw [decide_eq_true_eq, hr]
  cases s <;> decide

lemma oomCycles_le (obs : List Sample) : (oomCycles obs).length ≤ (cyclesOf obs).length := by
  rw [oomCycles, cyclesOf, Memory.sortedSet, List.length_insertionSort]
  refine ((List.nodup_dedup _).subperm fun c hc => ?_).length_le
  obtain ⟨r, hr, rfl⟩ := List.mem_map.mp (List.mem_dedup.mp hc)
  exact List.mem_dedup.mpr (List.mem_map_of_mem (List.mem_filter.mp hr).1)

end Detection

lemma argmin_id {l : List ℚ} {e : ℚ} : l.argmin id = some e ↔ e ∈ l ∧ ∀ x ∈ l, e ≤ x := by
  constructor
  · intro h
    exact ⟨List.argmin_mem h, fun x hx => List.le_of_mem_argmin hx h⟩
  · rintro ⟨he, hleast⟩
    cases hmin : l.argmin id with
    | none =>
      rw [List.argmin_eq_none.mp hmin] at he
      exact absurd he List.not_mem_nil
    | some m => exact congrArg some (le_antisymm (List.le_of_mem_argmin he hmin) (hleast m (List.argmin_mem hmin)))

lemma append_root (t : Tick) {root : String} (h : root ≠ "") : (append t).root = root ↔ t.accused = some root := by
  rw [append]
  cases t.accused with
  | none => simp [h.symm]
  | some p => simp

lemma blames_append (s : Scenario) (ticks : List Tick) {root : String} (h : root ≠ "") :
    blames ((ticks.map append).filter fun r => r.phase = s.name) root =
      ticks.countP fun t => t.phase = s.name ∧ t.accused = some root := by
  rw [blames, List.countP_filter, List.countP_map]
  apply List.countP_congr
  intro t _
  simp only [Function.comp_apply, Bool.and_eq_true, decide_eq_true_eq]
  rw [and_comm]
  exact and_congr Iff.rfl (append_root t h)

/-- The report of a scenario says what the verdicts of its ticks say: its rates are in order, its dominant root is named
by the most verdicts, and is any root that most of those with a root name; its median is the time in which more than
half of the detecting cycles have detected; and its earliest warning is the least of the forecasts. -/
theorem report_faithful (s : Scenario) (ticks : List Tick) :
    let seen := (ticks.map append).filter fun r => r.phase = s.name
    let named (root : String) := ticks.countP fun t => t.phase = s.name ∧ t.accused = some root
    let rep := report s (ticks.map append)
    (0 ≤ rep.correctRate ∧ rep.correctRate ≤ rep.detectRate ∧ rep.detectRate ≤ 1 ∧ rep.oomCycleRate ≤ 1) ∧
    (∀ root ≠ "", named root ≤ rep.dominantN ∧
      ((withRoot seen).length < 2 * named root → rep.dominantRoot = root)) ∧
    (0 < rep.dominantN → rep.dominantN = named rep.dominantRoot) ∧
    (∀ m, rep.medianTtdS = some m → 0 ≤ m ∧
      ∀ c, m ≤ c ↔ (ttds s seen).length < 2 * (ttds s seen).countP (· ≤ c)) ∧
    ∀ e, rep.minOomEtaS = some e ↔ IsLeast {x | x ∈ seen.filterMap Sample.oomEtaS} e := by
  intro seen named rep
  refine ⟨⟨rate_nonneg _ _, rate_mono (correct_le s seen) _, rate_le_one (List.length_filter_le _ _),
    rate_le_one (oomCycles_le seen)⟩, fun root hroot => ⟨?_, fun hmost => ?_⟩, fun hpos => ?_, fun m hm => ?_,
    fun e => argmin_id⟩
  · exact (blames_append s ticks hroot).ge.trans (blames_le_dominant _ hroot)
  · have hblames : blames seen root = named root := blames_append s ticks hroot
    exact dominant_of_majority hroot (by rwa [hblames])
  · obtain ⟨hne, hcount⟩ := dominant_blames seen hpos
    exact hcount.trans (blames_append s ticks hne)
  · have hmedian : (if ttds s seen = [] then none else some (Aggregator.upperMedian (ttds s seen))) = some m := hm
    split_ifs at hmedian with hnone
    obtain rfl := Option.some.inj hmedian
    refine ⟨?_, fun c => Aggregator.upperMedian_le_iff hnone⟩
    apply Aggregator.le_upperMedian
    have hall : (ttds s seen).countP (0 ≤ ·) = (ttds s seen).length := by
      rw [List.countP_eq_length]
      intro t ht
      obtain ⟨c, -, hc⟩ := List.mem_filterMap.mp ht
      exact decide_eq_true (ttd_nonneg hc)
    have hlen := List.length_pos_of_ne_nil hnone
    rw [hall]
    omega

end CausalEngine.Soak
