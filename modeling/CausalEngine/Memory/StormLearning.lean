import CausalEngine.Correlation.EdgeGates
import CausalEngine.Memory.Production

/-! The gate of the incident and the gate of the learning. Both compare a 90th percentile with the learned
threshold, but one takes it over the recent window and the other over the whole ring. -/

namespace CausalEngine.Memory

open Foundations Correlation PassInput

section Gates

variable {S : Stats} {cfg : MemoryConfig} {i : PassInput String} {pod : String} {vec : Vec}

lemma found_iff {g : PassGraph String} (hg : runPass S i = some g) (hvec : i.vectors.get? pod = some vec) :
    (∃ f ∈ g.findings, f.pod = pod) ↔ strongOnsets vec ≠ [] ∧ i.deviates pod vec = true := by
  rw [runPass_eq hg]
  simp only [mem_findings]
  rw [← i.mem_active, i.mem_active_iff_onsets, onsetPods, OrderedMap.mem_keys, rawOnsets]
  simp only [OrderedMap.get?_filterMapVals, hvec, Option.bind_some, rawOnsetsOf]
  split_ifs with hnil hdev
  · simp [hnil]
  · simp [hnil, hdev]
  · simp [hdev]

lemma deviates_iff {db : Db} {recent : ℕ} {b : BaselineRow}
    (hthr : i.baselines = some (i.vectors.mapVals fun p _ => baselineThreshold cfg db.baselines (stableWorkload p)))
    (hrec : i.recent = some recent) (hvec : i.vectors.get? pod = some vec)
    (hb : db.baselines.get? (stableWorkload pod, cfg.signal) = some b) (hn : cfg.baseMinN ≤ b.n) :
    i.deviates pod vec = true ↔ b.threshold cfg < percentile (takeLast recent vec) 90 := by
  have hmature : baselineThreshold cfg db.baselines (stableWorkload pod) = some (b.threshold cfg) := by
    rw [baselineThreshold, hb, Option.bind_some, if_neg (not_lt.mpr hn)]
  simp [deviates, hthr, hrec, hvec, hmature]

lemma learnRow_unchanged_iff {ts : ℚ} {b : BaselineRow} (hn : cfg.baseMinN ≤ b.n) (hlen : 12 ≤ vec.length) :
    (∃ b', learnRow cfg ts (some b) vec = some b' ∧ b'.median = b.median ∧ b'.mad = b.mad ∧ b'.n = b.n) ↔
      b.threshold cfg < percentile vec 90 := by
  simp only [learnRow, if_neg (not_lt.mpr hlen), hn, true_and]
  split_ifs with hstorm
  · exact iff_of_true ⟨b, rfl, rfl, rfl, rfl⟩ hstorm
  · apply iff_of_false ?_ hstorm
    rintro ⟨b', hb', -, -, hcount⟩
    obtain rfl := Option.some.inj hb'
    exact Nat.succ_ne_self b.n hcount

end Gates

/-- A finding's storm is kept out of its baseline unless it lifts the recent window over the threshold and
not the whole ring. -/
theorem storm_unlearned_iff (S : Stats) (digest : CaseKey → String) (cfg : MemoryConfig) (db : Db)
    (i : PassInput String) (o : Observation) (recent : ℕ) (pod : String) (vec : Vec) (b : BaselineRow)
    (hg : runPass S i = some o.graph) (hv : o.vectors = i.vectors)
    (hthr : i.baselines = some (i.vectors.mapVals fun p _ => baselineThreshold cfg db.baselines (stableWorkload p)))
    (hrec : i.recent = some recent) (hvec : i.vectors.get? pod = some vec) (hlen : 12 ≤ vec.length)
    (honly : ∀ p ∈ i.vectors.keys, stableWorkload p = stableWorkload pod → p = pod)
    (hb : db.baselines.get? (stableWorkload pod, cfg.signal) = some b) (hn : cfg.baseMinN ≤ b.n) :
    ((∃ f ∈ o.graph.findings, f.pod = pod) → ∃ b',
      (observe digest cfg db o).1.baselines.get? (stableWorkload pod, cfg.signal) = some b' ∧
        b'.median = b.median ∧ b'.mad = b.mad ∧ b'.n = b.n) ↔
      ¬ (strongOnsets vec ≠ [] ∧ b.threshold cfg < percentile (takeLast recent vec) 90 ∧
        percentile vec 90 ≤ b.threshold cfg) := by
  have hrow : (observe digest cfg db o).1.baselines.get? (stableWorkload pod, cfg.signal) =
      learnRow cfg o.ts (some b) vec := by
    rw [baselines_observe, hv, get?_updateBaselines_single cfg o.ts hvec honly, hb]
  rw [hrow, found_iff hg hvec, deviates_iff hthr hrec hvec hb hn, learnRow_unchanged_iff hn hlen]
  constructor
  · rintro h ⟨hs, hrecent, hring⟩
    exact (h ⟨hs, hrecent⟩).not_ge hring
  · rintro h ⟨hs, hrecent⟩
    by_contra hring
    exact h ⟨hs, hrecent, not_lt.mp hring⟩

def calmPass : Observation :=
  ⟨⟨[], [], [], [], ⟨1, 0, 0⟩⟩, .ofList [("dcim-bridge-6d-y2", List.replicate 40 0)], none, 10, 10⟩

def matured : Db := Runs.final (observe (fun _ => "c0") {}) .empty (List.replicate 12 calmPass)

def gatedInput (vec : Vec) : PassInput String where
  vectors := .ofList [("dcim-bridge-6d-y2", vec)]
  witness := ⟨[], [], [], []⟩
  sloBreach := []
  caps := .empty
  window := none
  writeVectors := .empty
  baselines := some ((OrderedMap.ofList [("dcim-bridge-6d-y2", vec)]).mapVals fun p _ =>
    baselineThreshold {} matured.baselines (stableWorkload p))
  recent := some 12

def learnedN (db : Db) : Option ℕ := (db.baselines.get? ("dcim-bridge", "psi_io")).map BaselineRow.n

theorem storm_unlearned_half :
    (∃ f ∈ ((gatedInput (stepVec 20 20)).passGraph momentStats).findings, f.pod = "dcim-bridge-6d-y2") ∧
    ∃ b b', matured.baselines.get? ("dcim-bridge", "psi_io") = some b ∧
      (observe (fun _ => "c0") {} matured (passObservation (gatedInput (stepVec 20 20)))).1.baselines.get?
        ("dcim-bridge", "psi_io") = some b' ∧ b'.median = b.median ∧ b'.mad = b.mad ∧ b'.n = b.n := by
  have hfound : ∃ f ∈ ((gatedInput (stepVec 20 20)).passGraph momentStats).findings,
      f.pod = "dcim-bridge-6d-y2" := by decide +kernel
  obtain ⟨b, hb, hrow⟩ : ∃ b, matured.baselines.get? (stableWorkload "dcim-bridge-6d-y2", "psi_io") = some b ∧
      (b.n, b.threshold {}) = (12, 4 / 100) := Option.map_eq_some_iff.mp (by decide +kernel)
  obtain ⟨hn, hthr⟩ := Prod.mk.inj hrow
  refine ⟨hfound, b, ?_⟩
  obtain ⟨b', hb', hsame⟩ := (storm_unlearned_iff momentStats (fun _ => "c0") {} matured (gatedInput (stepVec 20 20))
    (passObservation (gatedInput (stepVec 20 20))) 12 "dcim-bridge-6d-y2" (stepVec 20 20) b
    (runPass_ok (by decide +kernel)) rfl rfl rfl rfl (by decide) (by decide +kernel) hb hn.ge).mpr (by
      rintro ⟨-, -, hring⟩
      rw [hthr] at hring
      exact absurd hring (by decide +kernel)) hfound
  exact ⟨b', hb, hb', hsame⟩

theorem storm_learned :
    runPass momentStats (gatedInput (stepVec 37 3)) = some ((gatedInput (stepVec 37 3)).passGraph momentStats) ∧
    (∃ f ∈ ((gatedInput (stepVec 37 3)).passGraph momentStats).findings, f.pod = "dcim-bridge-6d-y2") ∧
    learnedN matured = some 12 ∧
    learnedN (observe (fun _ => "c0") {} matured (passObservation (gatedInput (stepVec 37 3)))).1 = some 13 :=
  ⟨runPass_ok (by decide +kernel), by decide +kernel⟩

end CausalEngine.Memory
