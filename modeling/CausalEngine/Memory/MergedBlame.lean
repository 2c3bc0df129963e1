import CausalEngine.Correlation.Routes
import CausalEngine.Memory.Merge

/-! Whom the merged verdict may blame: a symptom with nothing upstream, or a pod from which a route of
union edges leads to a symptom. -/

namespace CausalEngine.Memory

open Foundations Correlation DiGraph

section Union

variable (perSignal : OrderedMap String MemoryGraph)

def unionFactor (u v : String) (f : ℚ) : Prop :=
  ∃ e ∈ unionEdges perSignal, e.item.edge.src = u ∧ e.item.edge.dst = v ∧ f = 7 / 10 * |e.item.edge.r.val|

variable {perSignal}

lemma factor_unionGraph {u v : String} {f : ℚ} (h : (unionGraph perSignal).factor u v f) :
    unionFactor perSignal u v f := by
  obtain ⟨a, ha, rfl⟩ := h
  obtain ⟨d, hd, hda⟩ := List.mem_map.mp (OrderedMap.mem_entries_ofList ha)
  obtain ⟨e, he, rfl⟩ := List.mem_map.mp hd
  obtain ⟨hk, rfl⟩ := Prod.mk.inj hda
  obtain ⟨rfl, rfl⟩ := Prod.mk.inj hk
  exact ⟨e, he, rfl, rfl, mul_comm _ _⟩

lemma mem_nodes_unionGraph {n : String} : n ∈ nodes (unionGraph perSignal) ↔
    ∃ e ∈ unionEdges perSignal, n = e.item.edge.src ∨ n = e.item.edge.dst := by
  simp only [unionGraph, mem_nodes_buildGraph, List.mem_map]
  constructor
  · rintro ⟨_, ⟨e, he, rfl⟩, hn⟩
    exact ⟨e, he, hn⟩
  · rintro ⟨e, he, hn⟩
    exact ⟨_, ⟨e, he, rfl⟩, hn⟩

lemma mem_symptoms {n : String} : n ∈ symptoms perSignal ↔
    (∃ f ∈ unionFindings perSignal, f.item.pod = n) ∧ n ∈ nodes (unionGraph perSignal) := by
  simp only [symptoms, List.mem_filter, List.mem_map, decide_eq_true_eq]

lemma seedSet_symptoms (h : symptoms perSignal ≠ []) :
    seedSet (unionGraph perSignal) (symptoms perSignal) = symptoms perSignal := by
  have hf : (symptoms perSignal).filter (· ∈ nodes (unionGraph perSignal)) = symptoms perSignal := by
    apply List.filter_eq_self.mpr
    exact fun n hn => decide_eq_true (mem_symptoms.mp hn).2
  simp only [seedSet, hf, if_neg h]

lemma mem_mergedRanking {c : RootCause String} (h : c ∈ mergedRanking perSignal) :
    0 < explain (unionGraph perSignal) (symptoms perSignal) c.pod := by
  rw [mergedRanking] at h
  split_ifs at h with hnil
  · simp at h
  · simp only [not_or] at hnil
    rw [rankRootCauses] at h
    split_ifs at h
    · simp at h
    · rw [seedSet_symptoms hnil.2.2] at h
      obtain ⟨s, hs, hc⟩ := mem_ranked h
      obtain ⟨-, he, hpos⟩ := (mem_scores _).mp hs
      rwa [← hc, ← he]

lemma mergedRanking_off_graph (h : ∀ f ∈ unionFindings perSignal, ∀ e ∈ unionEdges perSignal,
    f.item.pod ≠ e.item.edge.src ∧ f.item.pod ≠ e.item.edge.dst) : mergedRanking perSignal = [] := by
  have hnil : symptoms perSignal = [] := by
    apply List.eq_nil_iff_forall_not_mem.mpr
    intro n hn
    obtain ⟨⟨f, hf, rfl⟩, hn⟩ := mem_symptoms.mp hn
    obtain ⟨e, he, hs | hd⟩ := mem_nodes_unionGraph.mp hn
    · exact (h f hf e he).1 hs
    · exact (h f hf e he).2 hd
  rw [mergedRanking, if_pos (Or.inr (Or.inr hnil))]

end Union

theorem merged_blame_explained (perSignal : OrderedMap String MemoryGraph) (primary : Option String) :
    (∀ c ∈ (mergeGraphs perSignal primary).rootCauseRanking,
      (∃ f ∈ unionFindings perSignal, f.item.pod = c.pod) ∧
          (∀ e ∈ unionEdges perSignal, e.item.edge.dst ≠ c.pod) ∨
        ∃ f ∈ unionFindings perSignal, ∃ k p,
          Walk (unionFactor perSignal) c.pod (k + 1) f.item.pod p ∧ 15 / 100 ≤ p) ∧
    ((∀ f ∈ unionFindings perSignal, ∀ e ∈ unionEdges perSignal,
        f.item.pod ≠ e.item.edge.src ∧ f.item.pod ≠ e.item.edge.dst) →
      (mergeGraphs perSignal primary).rootCauseRanking = [] ∧
        (mergeGraphs perSignal primary).blastRadius = []) := by
  constructor
  · intro c hc
    rcases explain_pos _ (mem_mergedRanking hc) with ⟨hs, hin⟩ | ⟨s, hs, k, p, hw, hp⟩
    · refine Or.inl ⟨(mem_symptoms.mp hs).1, ?_⟩
      intro e he
      exact (inDegree_eq_zero _).mp hin _ (mem_keys_buildGraph.mpr ⟨_, List.mem_map_of_mem he, rfl⟩)
    · obtain ⟨⟨f, hf, rfl⟩, -⟩ := mem_symptoms.mp hs
      exact Or.inr ⟨f, hf, k, p, hw.mono fun u v f => factor_unionGraph, hp⟩
  · intro h
    have hnil := mergedRanking_off_graph h
    refine ⟨hnil, ?_⟩
    change blastOfTop _ (mergedRanking perSignal) = []
    rw [hnil]
    rfl

def rendered (findings : List (Finding String)) (edges : List (Edge String)) : MemoryGraph where
  findings := findings
  edges := edges.map fun e => ⟨e, none⟩
  rootCauseRanking := []
  blastRadius := []
  passMeta := ⟨3, findings.length, edges.length⟩
  heldEdges := 0
  caseVerdict := none
  stats := ⟨0, 0, 0, 0, 0⟩

def stalled : Finding String := ⟨"timescaledb-7c-z9", .shift, 60, 1, 1⟩

def contends (aggressor : String) (k : ℕ) : Edge String := ⟨aggressor, stalled.pod, .tenths k, 5, [.stat, .pvc]⟩

def overlap : List (String × MemoryGraph) :=
  [("psi_io", rendered [stalled] [contends "cooling-monitor-5f-x1" 9]),
    ("psi_cpu", rendered [] [contends "cooling-monitor-5f-x1" 6,
      contends "dcim-bridge-6d-y2" 7])]

theorem merged_blame_explained_overlap :
    (∃ f ∈ unionFindings (.ofList overlap), ∃ k p,
      Walk (unionFactor (.ofList overlap)) "dcim-bridge-6d-y2" (k + 1) f.item.pod p ∧ 15 / 100 ≤ p) ∧
    (mergeGraphs (.ofList overlap.tail) none).rootCauseRanking = [] ∧
      (mergeGraphs (.ofList overlap.tail) none).blastRadius = [] := by
  constructor
  · obtain ⟨c, hc, hp⟩ : ∃ c ∈ (mergeGraphs (.ofList overlap) none).rootCauseRanking,
        c.pod = "dcim-bridge-6d-y2" := by decide +kernel
    have hno : ¬ ∃ f ∈ unionFindings (.ofList overlap), f.item.pod = "dcim-bridge-6d-y2" := by decide +kernel
    rcases (merged_blame_explained (.ofList overlap) none).1 c hc with ⟨hf, -⟩ | h
    · exact (hno (hp ▸ hf)).elim
    · exact hp ▸ h
  · exact (merged_blame_explained (.ofList overlap.tail) none).2 (by decide +kernel)

end CausalEngine.Memory
