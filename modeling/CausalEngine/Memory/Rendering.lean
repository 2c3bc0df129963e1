import CausalEngine.Correlation.Backbone
import CausalEngine.Memory.EdgeInvariant
import CausalEngine.Memory.Held

/-! The rendered graph holds no ghost and no double edge: rows outlive pods, but a held edge is drawn only
between pods of the pass, on a pair of workloads that no live edge joins, and once. Held edges without weight
leave the ranking alone, if they leave alone which pods have no incoming edge. -/

namespace CausalEngine.Memory

open Foundations Correlation DiGraph

def workloads (e : Edge String) : Sym2 String := e.pair.map stableWorkload

def RenderedEdge.held (r : RenderedEdge) : Bool := r.belief.any fun b => b.source = .memory

def Drawable (cfg : MemoryConfig) (z : Sym2 String) (e : EdgeKey × EdgeRow) : Prop :=
  e.1.signal = cfg.signal ∧ e.1.pair = z ∧ (e.2.visible = true ∨ 0 < e.2.baseConf)

variable {cfg : MemoryConfig} {m : EdgeTable} {o : Observation}

lemma liveEdge_held (e : Edge String) : (liveEdge cfg m e).held = false := by
  cases h : m.get? (edgeKeyOf cfg e) <;> simp [liveEdge, RenderedEdge.held, h]

lemma heldEdge_held {e : EdgeKey × EdgeRow} {r : RenderedEdge} (h : heldEdge o.wlPod o.now e = some r) :
    r.held = true := by
  obtain ⟨src, -, h⟩ := Option.bind_eq_some_iff.mp h
  obtain ⟨dst, -, rfl⟩ := Option.map_eq_some_iff.mp h
  rfl

lemma held_edges (m : EdgeTable) (o : Observation) :
    (liveEdges cfg m o ++ heldEdges cfg m o).filter RenderedEdge.held = heldEdges cfg m o := by
  rw [List.filter_append, List.filter_eq_nil_iff.mpr, List.nil_append, List.filter_eq_self]
  · intro r hr
    obtain ⟨e, -, h⟩ := List.mem_filterMap.mp hr
    exact heldEdge_held h
  · intro r hr
    obtain ⟨e, -, rfl⟩ := List.mem_map.mp hr
    simp [liveEdge_held]

lemma heldEdge_key {e : EdgeKey × EdgeRow} {r : RenderedEdge} (hs : e.1.signal = cfg.signal)
    (h : heldEdge o.wlPod o.now e = some r) : edgeKeyOf cfg r.edge = e.1 := by
  obtain ⟨hsrc, hdst, -⟩ := mem_heldEdge h
  obtain ⟨⟨src, dst, sig⟩, row⟩ := e
  simp only [edgeKeyOf, workload_wlPod hsrc, workload_wlPod hdst, ← hs]

lemma wlPod_mem {w pod : String} (h : o.wlPod.get? w = some pod) : pod ∈ o.vectors.keys := by
  have he := OrderedMap.mem_entries_ofList ((OrderedMap.get?_eq_some _ w pod).mp h)
  obtain ⟨p, hp, heq⟩ := List.mem_map.mp he
  obtain ⟨-, rfl⟩ := Prod.mk.inj heq
  exact hp

lemma mem_heldEdges_row {r : RenderedEdge} (h : r ∈ heldEdges cfg m o) :
    ∃ row, m.get? (edgeKeyOf cfg r.edge) = some row ∧ heldEdge o.wlPod o.now (edgeKeyOf cfg r.edge, row) = some r ∧
      Drawable cfg (workloads r.edge) (edgeKeyOf cfg r.edge, row) ∧
      (∀ e ∈ o.graph.edges, workloads e ≠ workloads r.edge) ∧
      ∀ e ∈ m.entries, Drawable cfg (workloads r.edge) e → e.2.confidence ≤ row.confidence := by
  obtain ⟨⟨j, row⟩, hmem, hr⟩ := List.mem_filterMap.mp h
  obtain ⟨hm, hs, hshow, hlive⟩ := mem_heldRows hmem
  obtain rfl := (heldEdge_key hs hr).symm
  refine ⟨row, hm, hr, ⟨hs, rfl, hshow⟩, ?_, ?_⟩
  · intro e he heq
    exact hlive (List.mem_map.mpr ⟨e, he, heq⟩)
  · rintro e he ⟨hes, hep, heshow⟩
    have hbest := (mem_values_bestByKey _ _ _ _).mp hmem
    refine ((get?_bestByKey _ _ _ _).1 _ hbest).2.2 e ?_ hep
    exact List.mem_filter.mpr ⟨he, decide_eq_true ⟨hes, heshow, hep.symm ▸ hlive⟩⟩

lemma heldEdges_nodup : ((heldEdges cfg m o).map fun r => workloads r.edge).Nodup := by
  have hkeys : ((heldRows cfg m (o.graph.edges.map fun e => (edgeKeyOf cfg e).pair)).map fun e => e.1.pair).Nodup := by
    rw [heldRows, map_values_bestByKey]
    exact OrderedMap.keys_nodup _
  refine hkeys.sublist (map_filterMap_sublist ?_ _)
  intro e r hr
  obtain ⟨hsrc, hdst, -⟩ := mem_heldEdge hr
  simp only [workloads, Edge.pair, Sym2.map_mk, EdgeKey.pair, workload_wlPod hsrc, workload_wlPod hdst]

lemma rendered_edges (digest : CaseKey → String) (db : Db) :
    (observe digest cfg db o).2.edges.map RenderedEdge.edge =
      o.graph.edges ++ (heldEdges cfg (observe digest cfg db o).1.edgeMemory o).map RenderedEdge.edge := by
  rw [edges_observe, List.map_append, liveEdges, List.map_map]
  exact congrArg (· ++ _) (List.map_id _)

theorem ranking_observe_weightless (digest : CaseKey → String) (db : Db)
    (hseed : ∃ f ∈ o.graph.findings, f.pod ∈ nodes (buildGraph o.graph.edges))
    (hheld : ∀ r ∈ heldEdges cfg (observe digest cfg db o).1.edgeMemory o, r.edge.r = Coef.zero)
    (hor : ∀ n, isOrigin (buildGraph ((observe digest cfg db o).2.edges.map RenderedEdge.edge)) n ↔
      isOrigin (buildGraph o.graph.edges) n) :
    (observe digest cfg db o).2.rootCauseRanking = rankRootCauses (buildGraph o.graph.edges)
      (o.graph.findings.map Finding.pod) (findingOnsets o.graph.findings) := by
  obtain ⟨f, hf, hnode⟩ := hseed
  obtain ⟨e, he, -⟩ := mem_nodes_buildGraph.mp hnode
  have hlive : o.graph.edges ≠ [] := List.ne_nil_of_mem he
  have hedges : (observe digest cfg db o).2.edges ≠ [] := by
    intro hnil
    have happend : (observe digest cfg db o).2.edges.map RenderedEdge.edge = _ := rendered_edges digest db
    rw [hnil, List.map_nil] at happend
    exact hlive (List.append_eq_nil_iff.mp happend.symm).1
  have hranking : (observe digest cfg db o).2.rootCauseRanking = rankRootCauses
      (buildGraph ((observe digest cfg db o).2.edges.map RenderedEdge.edge)) (o.graph.findings.map Finding.pod)
        (findingOnsets o.graph.findings) := if_pos ⟨List.ne_nil_of_mem hf, hedges⟩
  rw [rendered_edges] at hor
  rw [hranking, rendered_edges]
  refine ranking_extended ?_ ?_ hlive ⟨f.pod, List.mem_map_of_mem hf, hnode⟩ hor
  · intro z hz
    obtain ⟨r, hr, rfl⟩ := List.mem_map.mp hz
    exact hheld r hr
  · intro z hz d hd hpair
    obtain ⟨r, hr, rfl⟩ := List.mem_map.mp hz
    obtain ⟨row, -, -, -, hapart, -⟩ := mem_heldEdges_row hr
    exact hapart d hd (by rw [workloads, workloads, hpair])

theorem rendered_edges_sound (digest : CaseKey → String) (cfg : MemoryConfig) (db : Db) (o : Observation)
    (hends : ∀ e ∈ o.graph.edges, e.src ∈ o.vectors.keys ∧ e.dst ∈ o.vectors.keys) :
    let table := (observe digest cfg db o).1.edgeMemory
    let edges := (observe digest cfg db o).2.edges
    (∀ r ∈ edges, r.edge.src ∈ o.vectors.keys ∧ r.edge.dst ∈ o.vectors.keys) ∧
    (∀ r ∈ edges, r.held = true → ∀ e ∈ o.graph.edges, workloads e ≠ workloads r.edge) ∧
    ((edges.filter RenderedEdge.held).map fun r => workloads r.edge).Nodup ∧
    ∀ r ∈ edges, r.held = true → ∃ row, table.get? (edgeKeyOf cfg r.edge) = some row ∧
      heldEdge o.wlPod o.now (edgeKeyOf cfg r.edge, row) = some r ∧
      Drawable cfg (workloads r.edge) (edgeKeyOf cfg r.edge, row) ∧
      ∀ e ∈ table.entries, Drawable cfg (workloads r.edge) e → e.2.confidence ≤ row.confidence := by
  intro table edges
  have hedges : edges = liveEdges cfg table o ++ heldEdges cfg table o := edges_observe digest
  have hheld : ∀ r ∈ edges, r.held = true → r ∈ heldEdges cfg table o := by
    intro r hr hh
    rw [← held_edges table o, ← hedges]
    exact List.mem_filter.mpr ⟨hr, hh⟩
  refine ⟨?_, ?_, ?_, ?_⟩
  · intro r hr
    rw [hedges] at hr
    rcases List.mem_append.mp hr with hr | hr
    · obtain ⟨e, he, rfl⟩ := List.mem_map.mp hr
      exact hends e he
    · obtain ⟨e, -, hr⟩ := List.mem_filterMap.mp hr
      obtain ⟨hsrc, hdst, -⟩ := mem_heldEdge hr
      exact ⟨wlPod_mem hsrc, wlPod_mem hdst⟩
  · intro r hr hh
    obtain ⟨row, -, -, -, hlive, -⟩ := mem_heldEdges_row (hheld r hr hh)
    exact hlive
  · rw [hedges, held_edges]
    exact heldEdges_nodup
  · intro r hr hh
    obtain ⟨row, hrow, hr, hdraw, -, hbest⟩ := mem_heldEdges_row (hheld r hr hh)
    exact ⟨row, hrow, hr, hdraw, hbest⟩

def monitorRestarted : Observation :=
  { diskPass with
    graph := { diskPass.graph with edges := [] }
    vectors := .ofList [("cooling-monitor-5f-x7", []), ("timescaledb-7c-z9", [])]
    ts := 20
    now := 20 }

theorem rendered_edges_sound_restarted : ∃ r ∈ (observe (fun _ => "c0") {}
    (Runs.final (observe (fun _ => "c0") {}) .empty [diskPass]) monitorRestarted).2.edges, r.held = true ∧
      r.edge.src = "cooling-monitor-5f-x7" ∧ r.edge.src ∈ monitorRestarted.vectors.keys := by
  obtain ⟨r, hr, hh, hsrc⟩ : ∃ r ∈ (observe (fun _ => "c0") {}
      (Runs.final (observe (fun _ => "c0") {}) .empty [diskPass]) monitorRestarted).2.edges, r.held = true ∧
        r.edge.src = "cooling-monitor-5f-x7" := by decide +kernel
  exact ⟨r, hr, hh, hsrc, ((rendered_edges_sound _ {} _ monitorRestarted (by decide)).1 r hr).1⟩

end CausalEngine.Memory
