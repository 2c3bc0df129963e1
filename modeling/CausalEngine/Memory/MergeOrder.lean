import CausalEngine.Correlation.SameWeights
import CausalEngine.Memory.MergedBlame

/-! The order of the signals in a merge. A pair of pods has one weight in the union graph, that of the
last signal that couples it, so the order is seen where two signals disagree on a weight. -/

namespace CausalEngine.Memory

open Foundations Correlation DiGraph

section Family

variable (perSignal : OrderedMap String MemoryGraph)

def SignalsAgree : Prop := ∀ e ∈ perSignal.entries, ∀ e' ∈ perSignal.entries, ∀ k w w',
  weight e.2.graph k = some w → weight e'.2.graph k = some w' → w = w'

def TieFree : Prop := ((scores (unionGraph perSignal) (symptoms perSignal)).map Prod.snd).Nodup

instance : Decidable (TieFree perSignal) := inferInstanceAs (Decidable (List.Nodup _))

def familyGraph (l : List (String × MemoryGraph)) : DiGraph String :=
  buildGraph (l.flatMap fun e => e.2.edges.map RenderedEdge.edge)

lemma unionGraph_eq : unionGraph perSignal = familyGraph perSignal.entries := by
  simp [unionGraph, familyGraph, unionEdges, List.map_flatMap, Function.comp_def]

end Family

section Weights

variable {l : List (String × MemoryGraph)} {k : String × String} {w : Weight}

lemma weight_familyGraph_append (l' : List (String × MemoryGraph)) :
    weight (familyGraph (l ++ l')) k = (weight (familyGraph l') k).or (weight (familyGraph l) k) := by
  rw [familyGraph, List.flatMap_append, weight_append]
  rfl

lemma weight_familyGraph_last (e : String × MemoryGraph) :
    weight (familyGraph (l ++ [e])) k = (weight e.2.graph k).or (weight (familyGraph l) k) := by
  rw [weight_familyGraph_append]
  simp [familyGraph, MemoryGraph.graph]

lemma signal_of_weight (h : weight (familyGraph l) k = some w) : ∃ e ∈ l, weight e.2.graph k = some w := by
  induction l using List.reverseRecOn with
  | nil => exact (Option.some_ne_none w h.symm).elim
  | append_singleton l e ih =>
    rw [weight_familyGraph_last] at h
    rcases Option.or_eq_some_iff.mp h with h | ⟨-, h⟩
    · exact ⟨e, by simp, h⟩
    · obtain ⟨e', he', h⟩ := ih h
      exact ⟨e', List.mem_append_left _ he', h⟩

lemma weight_of_signal {e : String × MemoryGraph} (he : e ∈ l) (h : weight e.2.graph k = some w) :
    ∃ w', weight (familyGraph l) k = some w' := by
  induction l using List.reverseRecOn with
  | nil => simp at he
  | append_singleton l d ih =>
    rw [weight_familyGraph_last]
    cases hd : weight d.2.graph k with
    | some w' => exact ⟨w', rfl⟩
    | none =>
      rcases List.mem_append.mp he with he | he
      · exact ih he
      · rw [List.mem_singleton.mp he, hd] at h
        exact (Option.some_ne_none w h.symm).elim

end Weights

section Order

variable {perSignal reordered : OrderedMap String MemoryGraph}

lemma weight_unionGraph (h : SignalsAgree perSignal) {k : String × String} {w : Weight} :
    weight (unionGraph perSignal) k = some w ↔ ∃ e ∈ perSignal.entries, weight e.2.graph k = some w := by
  rw [unionGraph_eq]
  constructor
  · exact signal_of_weight
  · rintro ⟨e, he, hw⟩
    obtain ⟨w', hw'⟩ := weight_of_signal he hw
    obtain ⟨e', he', hw''⟩ := signal_of_weight hw'
    rw [hw', h e he e' he' k w w' hw hw'']

variable (hp : reordered.entries.Perm perSignal.entries)
include hp

lemma sameWeights_reordered (h : SignalsAgree perSignal) :
    SameWeights (unionGraph reordered) (unionGraph perSignal) := by
  have h' : SignalsAgree reordered := fun e he e' he' => h e (hp.mem_iff.mp he) e' (hp.mem_iff.mp he')
  intro k
  ext w
  simp only [weight_unionGraph h, weight_unionGraph h', hp.mem_iff]

lemma mergedRanking_reordered (hw : SameWeights (unionGraph reordered) (unionGraph perSignal))
    (ht : TieFree perSignal) : (mergedRanking reordered).map (fun c => (c.pod, c.score)) =
      (mergedRanking perSignal).map fun c => (c.pod, c.score) := by
  have hf : (unionFindings reordered).Perm (unionFindings perSignal) := hp.flatMap_right _
  have he : (unionEdges reordered).Perm (unionEdges perSignal) := hp.flatMap_right _
  have hs : ∀ n, n ∈ symptoms reordered ↔ n ∈ symptoms perSignal := by
    intro n
    simp only [mem_symptoms, hf.mem_iff, hw.nodes.mem_iff]
  have hsnil : symptoms reordered = [] ↔ symptoms perSignal = [] := by
    simp only [List.eq_nil_iff_forall_not_mem, hs]
  have hnil : (unionGraph reordered).entries = [] ↔ (unionGraph perSignal).entries = [] := by
    simpa only [OrderedMap.keys, List.map_eq_nil_iff] using nil_iff_of_perm hw.keys
  simp only [mergedRanking, rankRootCauses, nil_iff_of_perm he, nil_iff_of_perm hf, hsnil, hnil]
  split_ifs with h₁ h₂
  · rfl
  · rfl
  · simp only [not_or] at h₁
    rw [seedSet_symptoms h₁.2.2, seedSet_symptoms (hsnil.not.mpr h₁.2.2)]
    exact (ranked_perm (hw.scores hs).symm ht _ _).symm

end Order

/-- The merged verdict is the same for every order of the signals exactly when no two signals disagree
on the weight of a pair. -/
theorem merge_order_free_iff (perSignal : OrderedMap String MemoryGraph) (primary : Option String) :
    (∀ reordered : OrderedMap String MemoryGraph, reordered.entries.Perm perSignal.entries →
      (∀ k, weight (unionGraph reordered) k = weight (unionGraph perSignal) k) ∧
        (TieFree perSignal → (mergeGraphs reordered primary).rootCauseRanking.map (fun c => (c.pod, c.score)) =
          (mergeGraphs perSignal primary).rootCauseRanking.map fun c => (c.pod, c.score))) ↔
      SignalsAgree perSignal := by
  constructor
  · intro h e he e' he' k w w' hw hw'
    -- the signal that is moved to the end decides the weight
    have hlast : ∀ e ∈ perSignal.entries, ∀ w, weight e.2.graph k = some w →
        weight (unionGraph perSignal) k = some w := by
      intro e he w hw
      obtain ⟨l, l', hl⟩ := List.append_of_mem he
      have hperm : (l ++ l' ++ [e]).Perm perSignal.entries := by
        rw [hl, List.append_assoc]
        exact (List.perm_append_singleton e l').append_left l
      have hk := (h ⟨l ++ l' ++ [e], (hperm.map Prod.fst).nodup_iff.mpr perSignal.nodup⟩ hperm).1 k
      rw [← hk, unionGraph_eq, weight_familyGraph_last, hw]
      rfl
    have heq := (hlast e he w hw).symm.trans (hlast e' he' w' hw')
    exact Option.some.inj heq
  · intro h reordered hp
    have hw := sameWeights_reordered hp h
    exact ⟨hw, mergedRanking_reordered hp hw⟩

def agreed : List (String × MemoryGraph) :=
  [("psi_io", rendered [stalled] [contends "cooling-monitor-5f-x1" 9]),
    ("psi_cpu", rendered [] [contends "cooling-monitor-5f-x1" 9, contends "dcim-bridge-6d-y2" 7])]

theorem merge_order_free_iff_agreed :
    (weight (unionGraph (.ofList agreed)) ("cooling-monitor-5f-x1", "timescaledb-7c-z9")).map Subtype.val =
        some (9 / 10 : ℚ) ∧
      ∀ reordered : OrderedMap String MemoryGraph, reordered.entries.Perm (OrderedMap.ofList agreed).entries →
        (∀ k, weight (unionGraph reordered) k = weight (unionGraph (.ofList agreed)) k) ∧
          (TieFree (.ofList agreed) → (mergeGraphs reordered none).rootCauseRanking.map (fun c => (c.pod, c.score)) =
            (mergeGraphs (.ofList agreed) none).rootCauseRanking.map fun c => (c.pod, c.score)) := by
  refine ⟨by decide +kernel, (merge_order_free_iff (.ofList agreed) none).mpr ?_⟩
  intro e he e' he' k w w' hw hw'
  have hone : ∀ e ∈ (OrderedMap.ofList agreed).entries, ∀ e' ∈ (OrderedMap.ofList agreed).entries,
      ∀ x ∈ e.2.graph.entries, ∀ x' ∈ e'.2.graph.entries, x.1 = x'.1 → x.2.weight = x'.2.weight := by decide +kernel
  obtain ⟨a, ha, rfl⟩ := Option.map_eq_some_iff.mp hw
  obtain ⟨a', ha', rfl⟩ := Option.map_eq_some_iff.mp hw'
  exact hone e he e' he' (k, a) ((OrderedMap.get?_eq_some _ k a).mp ha) (k, a')
    ((OrderedMap.get?_eq_some _ k a').mp ha') rfl

theorem merge_order_seen_overlap :
    (OrderedMap.ofList overlap.reverse).entries.Perm (OrderedMap.ofList overlap).entries ∧
      TieFree (.ofList overlap) ∧ TieFree (.ofList overlap.reverse) ∧
      (mergeGraphs (.ofList overlap) none).rootCauseRanking.map RootCause.pod =
        ["dcim-bridge-6d-y2", "cooling-monitor-5f-x1"] ∧
      (mergeGraphs (.ofList overlap.reverse) none).rootCauseRanking.map RootCause.pod =
        ["cooling-monitor-5f-x1", "dcim-bridge-6d-y2"] := by decide +kernel

end CausalEngine.Memory
