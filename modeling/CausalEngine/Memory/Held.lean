import CausalEngine.Memory.Observe

/-! The rendered edges: those of the pass, and the held rows mapped back to the pods that are present. -/

namespace CausalEngine.Memory

open Foundations Correlation

variable {cfg : MemoryConfig} {o : Observation}

lemma mem_present {w : String} : w ∈ o.present ↔ ∃ pod, o.wlPod.get? w = some pod := by
  rw [← OrderedMap.mem_keys, Observation.wlPod, OrderedMap.mem_keys_ofList, List.map_map]
  rfl

lemma workload_wlPod {w pod : String} (h : o.wlPod.get? w = some pod) : stableWorkload pod = w := by
  have he := OrderedMap.mem_entries_ofList ((OrderedMap.get?_eq_some _ w pod).mp h)
  obtain ⟨p, _, hp⟩ := List.mem_map.mp he
  obtain ⟨rfl, rfl⟩ := Prod.mk.inj hp
  rfl

lemma mem_heldRows {m : EdgeTable} {live : List (Sym2 String)} {e : EdgeKey × EdgeRow}
    (h : e ∈ heldRows cfg m live) : m.get? e.1 = some e.2 ∧ e.1.signal = cfg.signal ∧
      (e.2.visible = true ∨ 0 < e.2.baseConf) ∧ e.1.pair ∉ live := by
  obtain ⟨hmem, hp⟩ := List.mem_filter.mp (mem_of_mem_bestByKey h)
  exact ⟨(m.get?_eq_some e.1 e.2).mpr hmem, of_decide_eq_true hp⟩

lemma heldRows_covers {m : EdgeTable} {live : List (Sym2 String)} {j : EdgeKey} {row : EdgeRow}
    (hm : m.get? j = some row) (hs : j.signal = cfg.signal) (hr : row.visible = true ∨ 0 < row.baseConf)
    (hl : j.pair ∉ live) : ∃ e ∈ heldRows cfg m live, e.1.pair = j.pair := by
  apply bestByKey_covers (fun e : EdgeKey × EdgeRow => e.1.pair) (e := (j, row))
  exact List.mem_filter.mpr ⟨(m.get?_eq_some j row).mp hm, decide_eq_true ⟨hs, hr, hl⟩⟩

lemma mem_heldEdge {e : EdgeKey × EdgeRow} {r : RenderedEdge} (h : heldEdge o.wlPod o.now e = some r) :
    o.wlPod.get? e.1.src = some r.edge.src ∧ o.wlPod.get? e.1.dst = some r.edge.dst ∧
      r.edge.r = e.2.r.round 3 := by
  obtain ⟨src, hs, h⟩ := Option.bind_eq_some_iff.mp h
  obtain ⟨dst, hd, rfl⟩ := Option.map_eq_some_iff.mp h
  exact ⟨hs, hd, rfl⟩

section Observing

variable {db : Db} (digest : CaseKey → String)

lemma edges_observe : (observe digest cfg db o).2.edges =
    liveEdges cfg (observe digest cfg db o).1.edgeMemory o ++
      heldEdges cfg (observe digest cfg db o).1.edgeMemory o := rfl

lemma findings_observe : (observe digest cfg db o).2.findings = o.graph.findings := rfl

end Observing

end CausalEngine.Memory
