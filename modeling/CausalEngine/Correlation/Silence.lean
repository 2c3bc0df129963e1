import CausalEngine.Correlation.EdgeGates

/-! A pass over pods that all stay within their normal band finds nothing, whatever the breach list
and the write series say. -/

namespace CausalEngine.Correlation

open Foundations

structure PassGraph.Silent {Pod : Type} (g : PassGraph Pod) : Prop where
  findings : g.findings = []
  edges : g.edges = []
  ranking : g.rootCauseRanking = []
  blast : g.blastRadius = []

variable {Pod : Type} [LinearOrder Pod] (S : Stats) (i : PassInput Pod)

namespace PassInput

def threshold (p : Pod) : Option ℚ := i.baselines.bind fun b => (b.get? p).join

def steady (p : Pod) (x : Vec) : Prop :=
  (∀ o ∈ cusumOnsets x, |o.zpeak| < 3) ∨
    (i.baselines.isSome ∧ ∀ thr, i.threshold p = some thr → percentile (takeLast (i.recent.getD 0) x) 90 ≤ thr)

def quiet : Prop := ∀ e ∈ i.vectors.entries, i.steady e.1 e.2

variable {i}

lemma rawOnsetsOf_steady {p : Pod} {x : Vec} (h : i.steady p x) : i.rawOnsetsOf p x = none := by
  simp only [rawOnsetsOf]
  rcases h with h | ⟨hb, hthr⟩
  · have hnil : strongOnsets x = [] := by
      simp only [strongOnsets, List.filter_eq_nil_iff, decide_eq_true_eq, not_le]
      exact h
    rw [if_pos hnil]
  · obtain ⟨b, hb⟩ := Option.isSome_iff_exists.mp hb
    have hdev : i.deviates p x = false := by
      simp only [threshold, hb, Option.bind_some] at hthr
      simp only [deviates, hb]
      cases hj : (b.get? p).join with
      | none => rfl
      | some thr => simpa using hthr thr hj
    simp [hdev]

lemma active_quiet (h : i.quiet) : i.active = [] := by
  rw [active, OrderedMap.keys, List.map_eq_nil_iff, List.eq_nil_iff_forall_not_mem]
  rintro ⟨p, f⟩ hf
  rw [← OrderedMap.get?_eq_some, findings, OrderedMap.get?_filterMapVals] at hf
  obtain ⟨x, hx, hfind⟩ := Option.bind_eq_some_iff.mp hf
  have hs := h (p, x) ((i.vectors.get?_eq_some p x).mp hx)
  simp [finding, rawOnsetsOf_steady hs] at hfind

lemma centreIdx_quiet (h : i.quiet) : i.centreIdx = none := by
  have hons : i.onsetPods = [] := by
    rw [List.eq_nil_iff_forall_not_mem]
    intro p hp
    have hact := i.mem_active_iff_onsets.mpr hp
    simp [active_quiet h] at hact
  simp [centreIdx, centrePod, centrePods, coupledPods, hons]

lemma edges_inactive (hact : i.active = []) : i.edges S = [] := by
  rw [List.eq_nil_iff_forall_not_mem]
  intro e he
  rcases (i.mem_edges S).mp he with he | ⟨he, -⟩
  · obtain ⟨-, -, -, hv, -⟩ := i.sourceEdge_spec S ((i.mem_sourceEdges S).mp he)
    simp [hact] at hv
  · obtain ⟨a, b, -, -, -, hpe⟩ := (i.mem_psiEdges S).mp he
    simp [psiEdge, disturbed, hact] at hpe

lemma writeCvec_quiet (h : i.quiet) : i.writeCvec.values = i.writeVectors.values := by
  have hid : ∀ x, i.analysed x = x := by
    intro x
    simp only [analysed, centreIdx_quiet h]
    cases i.window <;> rfl
  simp [writeCvec, OrderedMap.values, OrderedMap.mapVals, hid]

lemma verdict_edgeless (h : i.edges S = []) :
    (i.passGraph S).rootCauseRanking = [] ∧ (i.passGraph S).blastRadius = [] := by
  have hrank : ∀ seeds, rankRootCauses (buildGraph ([] : List (Edge Pod))) seeds i.onsetS = [] :=
    fun _ => rfl
  simp [passGraph, h, hrank]

lemma findings_eq_nil : (i.passGraph S).findings = [] ↔ i.active = [] := by
  rw [← List.length_eq_zero_iff, passGraph, List.length_insertionSort]
  simp [active, OrderedMap.keys, OrderedMap.values]

lemma passGraph_inactive (h : i.active = []) : (i.passGraph S).Silent := by
  have he := edges_inactive S h
  obtain ⟨hr, hb⟩ := verdict_edgeless S he
  exact ⟨(findings_eq_nil S).mpr h, he, hr, hb⟩

lemma passGraph_silent (h : i.quiet) : (i.passGraph S).Silent := passGraph_inactive S (active_quiet h)

lemma runPass_quiet (h : i.quiet) (hw : [] ∉ i.writeVectors.values) :
    runPass S i = some (i.passGraph S) := by
  apply runPass_ok
  rwa [writeCvec_quiet h]

end PassInput

end CausalEngine.Correlation
