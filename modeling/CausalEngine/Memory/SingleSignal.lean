import CausalEngine.Correlation.ImpactFacts
import CausalEngine.Correlation.Silence
import CausalEngine.Memory.EdgeInvariant
import CausalEngine.Memory.Held
import CausalEngine.Memory.Merge
import CausalEngine.Memory.Production

/-! The merge of a single signal. Both verdicts rank the same graph; they differ when no finding lies on
it, where the merge gives no root and the memory ranks all nodes. -/

namespace CausalEngine.Memory

open Foundations Correlation DiGraph PassInput

section Condition

variable (cfg : MemoryConfig) (db : Db) (o : Observation)

def seededFloor (j : EdgeKey) (row : EdgeRow) : ℚ :=
  if seeds cfg o.present o.witness j then max row.baseConf cfg.prior else row.baseConf

structure Shown (j : EdgeKey) : Prop where
  signal : j.signal = cfg.signal
  src : j.src ∈ o.present
  dst : j.dst ∈ o.present
  notLive : ∀ e ∈ o.graph.edges, (edgeKeyOf cfg e).pair ≠ j.pair
  held : (0 < cfg.prior ∧ seeds cfg o.present o.witness j = true) ∨
    ∃ row, db.edgeMemory.get? j = some row ∧ (0 < row.baseConf ∨
      row.visible = true ∧ cfg.hideAt ≤ max (seededFloor cfg o j row) (row.confidence * (1 - cfg.decay)))

def standsOn (pod : String) (j : EdgeKey) : Prop :=
  o.wlPod.get? j.src = some pod ∨ o.wlPod.get? j.dst = some pod

structure OffGraph : Prop where
  findings : o.graph.findings ≠ []
  edges : o.graph.edges ≠ [] ∨ ∃ j, Shown cfg db o j
  live : ∀ f ∈ o.graph.findings, ∀ e ∈ o.graph.edges, f.pod ≠ e.src ∧ f.pod ≠ e.dst
  held : ∀ f ∈ o.graph.findings, ∀ j, Shown cfg db o j → ¬ standsOn o f.pod j

end Condition

section Rendering

variable {cfg : MemoryConfig} {db : Db} {o : Observation}

lemma standsOn_congr {j k : EdgeKey} (h : j.pair = k.pair) (pod : String) :
    standsOn o pod j ↔ standsOn o pod k := by
  rcases Sym2.eq_iff.mp h with ⟨hs, hd⟩ | ⟨hs, hd⟩
  · rw [standsOn, hs, hd, standsOn]
  · rw [standsOn, hs, hd, standsOn, or_comm]

lemma decayRow_shown {ts : ℚ} {row : EdgeRow} :
    ((decayRow cfg ts row).visible = true ∨ 0 < (decayRow cfg ts row).baseConf) ↔ (0 < row.baseConf ∨
      row.visible = true ∧ cfg.hideAt ≤ max row.baseConf (row.confidence * (1 - cfg.decay))) := by
  simp only [decayRow, Bool.and_eq_true, decide_eq_true_eq]
  exact or_comm

lemma held_iff {j : EdgeKey} :
    (∃ row, ((if seeds cfg o.present o.witness j then some (seedRow cfg o.ts (db.edgeMemory.get? j))
        else db.edgeMemory.get? j).map (decayRow cfg o.ts)) = some row ∧
      (row.visible = true ∨ 0 < row.baseConf)) ↔
    (0 < cfg.prior ∧ seeds cfg o.present o.witness j = true) ∨
      ∃ row, db.edgeMemory.get? j = some row ∧ (0 < row.baseConf ∨
        row.visible = true ∧ cfg.hideAt ≤ max (seededFloor cfg o j row) (row.confidence * (1 - cfg.decay))) := by
  simp only [Option.map_eq_some_iff, ↓existsAndEq, and_true, decayRow_shown, seededFloor]
  cases hs : seeds cfg o.present o.witness j with
  | false => simp
  | true =>
    cases hm : db.edgeMemory.get? j with
    | none => simp [seedRow, structuralRow]
    | some row =>
      simp only [seedRow, if_true, Option.some.injEq, exists_eq_left', Option.elim_some, lt_max_iff, and_true]
      tauto

lemma shown_iff {j : EdgeKey} : Shown cfg db o j ↔ j.signal = cfg.signal ∧ j.src ∈ o.present ∧
    j.dst ∈ o.present ∧ (∀ e ∈ o.graph.edges, (edgeKeyOf cfg e).pair ≠ j.pair) ∧
    ∃ row, (updateEdges cfg o.present o.ts o.witness o.graph.edges db.edgeMemory).get? j = some row ∧
      (row.visible = true ∨ 0 < row.baseConf) := by
  have hupdate : j.signal = cfg.signal → j.src ∈ o.present → j.dst ∈ o.present →
      (∀ e ∈ o.graph.edges, (edgeKeyOf cfg e).pair ≠ j.pair) →
      (updateEdges cfg o.present o.ts o.witness o.graph.edges db.edgeMemory).get? j =
        (if seeds cfg o.present o.witness j then some (seedRow cfg o.ts (db.edgeMemory.get? j))
          else db.edgeMemory.get? j).map (decayRow cfg o.ts) := by
    intro hs hsrc hdst hlive
    have hseen : j ∉ o.graph.edges.map (edgeKeyOf cfg) := by
      intro hj
      obtain ⟨e, he, hej⟩ := List.mem_map.mp hj
      exact hlive e he (by rw [hej])
    have hd : decays cfg o.present (o.graph.edges.map (edgeKeyOf cfg)) j := ⟨hs, hseen, hsrc, hdst⟩
    rw [get?_updateEdges, unseen_filter cfg hseen, List.foldl_nil]
    simp only [hd, if_true]
  constructor
  · rintro ⟨hs, hsrc, hdst, hlive, h⟩
    refine ⟨hs, hsrc, hdst, hlive, ?_⟩
    rw [hupdate hs hsrc hdst hlive]
    exact held_iff.mpr h
  · rintro ⟨hs, hsrc, hdst, hlive, h⟩
    rw [hupdate hs hsrc hdst hlive] at h
    exact ⟨hs, hsrc, hdst, hlive, held_iff.mp h⟩

lemma mem_heldEdges {m : EdgeTable}
    (hm : m = updateEdges cfg o.present o.ts o.witness o.graph.edges db.edgeMemory) {pod : String} :
    (∃ r ∈ heldEdges cfg m o, pod = r.edge.src ∨ pod = r.edge.dst) ↔
      ∃ j, Shown cfg db o j ∧ standsOn o pod j := by
  have hlive : ∀ j : EdgeKey, (j.pair ∉ o.graph.edges.map fun e => (edgeKeyOf cfg e).pair) ↔
      ∀ e ∈ o.graph.edges, (edgeKeyOf cfg e).pair ≠ j.pair := by
    intro j
    simp only [List.mem_map, not_exists, not_and]
  constructor
  · rintro ⟨r, hr, hpod⟩
    obtain ⟨⟨j, row⟩, he, hheld⟩ := List.mem_filterMap.mp hr
    obtain ⟨hg, hs, hrow, hl⟩ := mem_heldRows he
    obtain ⟨hsrc, hdst, -⟩ := mem_heldEdge hheld
    have hshown : Shown cfg db o j := shown_iff.mpr
      ⟨hs, mem_present.mpr ⟨_, hsrc⟩, mem_present.mpr ⟨_, hdst⟩, (hlive j).mp hl, row, hm ▸ hg, hrow⟩
    refine ⟨j, hshown, ?_⟩
    rcases hpod with rfl | rfl
    · exact Or.inl hsrc
    · exact Or.inr hdst
  · rintro ⟨j, hj, hstands⟩
    obtain ⟨hs, hsrc, hdst, hl, row, hg, hrow⟩ := shown_iff.mp hj
    -- the row that is rendered for the pair may be the one of the other direction
    obtain ⟨⟨k, row'⟩, he, hp⟩ := heldRows_covers (hm ▸ hg) hs hrow ((hlive j).mpr hl)
    have hends : k.src ∈ o.present ∧ k.dst ∈ o.present := by
      rcases Sym2.eq_iff.mp hp with ⟨hks, hkd⟩ | ⟨hks, hkd⟩
      · exact ⟨hks ▸ hsrc, hkd ▸ hdst⟩
      · exact ⟨hks ▸ hdst, hkd ▸ hsrc⟩
    obtain ⟨src, hsrc⟩ := mem_present.mp hends.1
    obtain ⟨dst, hdst⟩ := mem_present.mp hends.2
    obtain ⟨r, hr⟩ : ∃ r, heldEdge o.wlPod o.now (k, row') = some r := by
      simp [heldEdge, hsrc, hdst]
    obtain ⟨hrs, hrd, -⟩ := mem_heldEdge hr
    refine ⟨r, List.mem_filterMap.mpr ⟨_, he, hr⟩, ?_⟩
    rcases (standsOn_congr hp pod).mpr hstands with h | h
    · exact Or.inl (Option.some.inj (h.symm.trans hrs))
    · exact Or.inr (Option.some.inj (h.symm.trans hrd))

end Rendering

section Strength

variable {S : Stats} {cfg : MemoryConfig}

def Grounded (m : EdgeTable) : Prop :=
  ∀ j row, m.get? j = some row → 1 / 2 ≤ row.r.val ∨ j.src < j.dst

lemma updateEdges_grounded {present : List String} {ts : ℚ} {witness : Option (Witness String)}
    {edges : List (Edge String)} {m : EdgeTable} (hm : Grounded m) (he : ∀ e ∈ edges, 1 / 2 ≤ e.r.val) :
    Grounded (updateEdges cfg present ts witness edges m) := by
  intro j
  apply updateEdges_row
  · exact hm j
  · intro hs
    obtain ⟨-, -, -, hlt⟩ := seeds_present cfg present hs
    exact Or.inr hlt
  · exact fun e hmem _ row _ => Or.inl (he e hmem)
  · exact fun row h => h

lemma grounded_run (digest : CaseKey → String) (xs : List Observation) (h : ∀ x ∈ xs, FromPass S x) :
    Grounded (Runs.final (observe digest cfg) .empty xs).edgeMemory := by
  apply Runs.final_invariant (P := fun db : Db => Grounded db.edgeMemory)
  · intro j row hrow
    simp [Db.empty] at hrow
  · intro db hdb x hx
    rw [edgeMemory_observe]
    exact updateEdges_grounded hdb (strong_of_fromPass (h x hx))

lemma strong_round {r : Coef} (h : 1 / 2 ≤ r.val) : 1 / 2 ≤ (r.round 3).val := by
  have hk : (1 / 2 : ℚ) = ((500 : ℤ) : ℚ) / 10 ^ 3 := by norm_num
  rw [hk] at h ⊢
  exact le_roundTo 500 h

end Strength

section Verdict

variable {cfg : MemoryConfig} {db : Db} {o : Observation} (digest : CaseKey → String)

def MemoryGraph.symptoms (g : MemoryGraph) : List String := g.findings.map Finding.pod

lemma unionGraph_single (sig : String) (g : MemoryGraph) : unionGraph (.ofList [(sig, g)]) = g.graph := by
  have he : (OrderedMap.ofList [(sig, g)]).entries = [(sig, g)] := rfl
  simp [unionGraph, unionEdges, he, MemoryGraph.graph, Function.comp_def]

lemma mergedRanking_single (sig : String) (g : MemoryGraph) : mergedRanking (.ofList [(sig, g)]) =
    if g.edges = [] ∨ g.findings = [] ∨ g.symptoms.filter (· ∈ nodes g.graph) = [] then []
    else rankRootCauses g.graph (g.symptoms.filter (· ∈ nodes g.graph)) (findingOnsets g.findings) := by
  have he : (OrderedMap.ofList [(sig, g)]).entries = [(sig, g)] := rfl
  have hedges : unionEdges (.ofList [(sig, g)]) = g.edges.map (Tagged.mk sig) := by simp [unionEdges, he]
  have hfind : unionFindings (.ofList [(sig, g)]) = g.findings.map (Tagged.mk sig) := by
    simp [unionFindings, he]
  have hsym : symptoms (.ofList [(sig, g)]) = g.symptoms.filter (· ∈ nodes g.graph) := by
    simp [symptoms, hfind, unionGraph_single, MemoryGraph.symptoms, Function.comp_def]
  have hons : (unionFindings (.ofList [(sig, g)])).map Tagged.item = g.findings := by
    simp [hfind, Function.comp_def]
  rw [mergedRanking, hsym, hons, unionGraph_single]
  simp [hedges, hfind]

lemma edges_observe_eq_nil : (observe digest cfg db o).2.edges = [] ↔
    o.graph.edges = [] ∧ ∀ j, ¬ Shown cfg db o j := by
  have hheld := @mem_heldEdges cfg db o _ (edgeMemory_observe digest cfg db o)
  rw [edges_observe, List.append_eq_nil_iff, liveEdges, List.map_eq_nil_iff]
  refine and_congr_right fun _ => ⟨?_, ?_⟩
  · intro hnil j hj
    obtain ⟨pod, hpod⟩ := mem_present.mp hj.src
    obtain ⟨r, hr, -⟩ := hheld.mpr ⟨j, hj, Or.inl hpod⟩
    simp [hnil] at hr
  · intro hno
    rw [List.eq_nil_iff_forall_not_mem]
    intro r hr
    obtain ⟨j, hj, -⟩ := hheld.mp ⟨r, hr, Or.inl rfl⟩
    exact hno j hj

lemma mem_nodes_observe {pod : String} : pod ∈ nodes (observe digest cfg db o).2.graph ↔
    (∃ e ∈ o.graph.edges, pod = e.src ∨ pod = e.dst) ∨ ∃ j, Shown cfg db o j ∧ standsOn o pod j := by
  rw [MemoryGraph.graph, mem_nodes_buildGraph, ← mem_heldEdges (edgeMemory_observe digest cfg db o), edges_observe]
  simp only [List.map_append, List.mem_append, List.mem_map, liveEdges, exists_exists_and_eq_and, liveEdge,
    or_and_right, exists_or]

lemma offGraph_iff : OffGraph cfg db o ↔ (observe digest cfg db o).2.findings ≠ [] ∧
    (observe digest cfg db o).2.edges ≠ [] ∧
    (observe digest cfg db o).2.symptoms.filter (· ∈ nodes (observe digest cfg db o).2.graph) = [] := by
  have hsym : (observe digest cfg db o).2.symptoms.filter (· ∈ nodes (observe digest cfg db o).2.graph) = [] ↔
      ∀ f ∈ o.graph.findings, f.pod ∉ nodes (observe digest cfg db o).2.graph := by
    simp [MemoryGraph.symptoms, findings_observe, List.filter_eq_nil_iff]
  rw [findings_observe, ne_eq, ne_eq, edges_observe_eq_nil, hsym]
  simp only [mem_nodes_observe]
  constructor
  · rintro ⟨hf, he, hlive, hheld⟩
    refine ⟨hf, ?_, ?_⟩
    · rintro ⟨hnil, hno⟩
      rcases he with he | ⟨j, hj⟩
      · exact he hnil
      · exact hno j hj
    · rintro f hmem (⟨e, he, h⟩ | ⟨j, hj, hs⟩)
      · rcases h with h | h
        · exact (hlive f hmem e he).1 h
        · exact (hlive f hmem e he).2 h
      · exact hheld f hmem j hj hs
  · rintro ⟨hf, he, hoff⟩
    refine ⟨hf, ?_, ?_, ?_⟩
    · by_contra hno
      push Not at hno
      exact he hno
    · intro f hmem e hmem'
      exact ⟨fun h => hoff f hmem (Or.inl ⟨e, hmem', Or.inl h⟩),
        fun h => hoff f hmem (Or.inl ⟨e, hmem', Or.inr h⟩)⟩
    · exact fun f hmem j hj hs => hoff f hmem (Or.inr ⟨j, hj, hs⟩)

lemma ranking_observe (db : Db) (o : Observation) : (observe digest cfg db o).2.rootCauseRanking =
    if (observe digest cfg db o).2.findings ≠ [] ∧ (observe digest cfg db o).2.edges ≠ [] then
      rankRootCauses (observe digest cfg db o).2.graph (observe digest cfg db o).2.symptoms
        (findingOnsets (observe digest cfg db o).2.findings)
    else o.graph.rootCauseRanking := rfl

lemma blast_observe (db : Db) (o : Observation) : (observe digest cfg db o).2.blastRadius =
    if (observe digest cfg db o).2.findings ≠ [] ∧ (observe digest cfg db o).2.edges ≠ [] then
      blastOfTop (observe digest cfg db o).2.graph (observe digest cfg db o).2.rootCauseRanking
    else o.graph.blastRadius := by
  rw [ranking_observe]
  simp only [observe, render]
  split_ifs <;> rfl

variable {S : Stats}

lemma verdict_fromPass (h : FromPass S o) (hg : o.graph.findings = [] ∨ o.graph.edges = []) :
    o.graph.rootCauseRanking = [] ∧ o.graph.blastRadius = [] := by
  obtain ⟨i, hi, -, -⟩ := h
  rw [runPass_eq hi] at hg ⊢
  rcases hg with hf | he
  · have hs := passGraph_inactive S ((findings_eq_nil S).mp hf)
    exact ⟨hs.ranking, hs.blast⟩
  · exact verdict_edgeless S he

lemma pass_unranked (hv : ¬ ((observe digest cfg db o).2.findings ≠ [] ∧ (observe digest cfg db o).2.edges ≠ [])) :
    o.graph.findings = [] ∨ o.graph.edges = [] := by
  by_contra hno
  push Not at hno
  exact hv ⟨hno.1, fun hnil => hno.2 ((edges_observe_eq_nil digest).mp hnil).1⟩

lemma rising_observe (h : FromPass S o) (hm : Grounded (observe digest cfg db o).1.edgeMemory) :
    ∀ r ∈ (observe digest cfg db o).2.edges,
      1 / 2 ≤ r.edge.r.val ∨ stableWorkload r.edge.src < stableWorkload r.edge.dst := by
  intro r hr
  rw [edges_observe] at hr
  rcases List.mem_append.mp hr with hr | hr
  · obtain ⟨e, he, rfl⟩ := List.mem_map.mp hr
    exact Or.inl (strong_of_fromPass h e he)
  · obtain ⟨⟨j, row⟩, he, hheld⟩ := List.mem_filterMap.mp hr
    obtain ⟨hsrc, hdst, hcoef⟩ := mem_heldEdge hheld
    rw [hcoef, workload_wlPod hsrc, workload_wlPod hdst]
    exact (hm j row (mem_heldRows he).1).imp_left strong_round

lemma ranking_offGraph (h : FromPass S o) (hm : Grounded (observe digest cfg db o).1.edgeMemory)
    (hoff : OffGraph cfg db o) : (observe digest cfg db o).2.rootCauseRanking ≠ [] := by
  obtain ⟨hf, he, hs⟩ := (offGraph_iff digest).mp hoff
  have hne : (observe digest cfg db o).2.graph.entries ≠ [] := by
    apply buildGraph_entries_ne_nil
    simpa using he
  have hseed : seedSet (observe digest cfg db o).2.graph (observe digest cfg db o).2.symptoms =
      nodes (observe digest cfg db o).2.graph := by
    rw [seedSet, if_pos hs]
  rw [ranking_observe, if_pos ⟨hf, he⟩, rankRootCauses, if_neg hne, hseed]
  apply ranked_ne_nil
  apply scores_nodes_ne_nil _ stableWorkload hne
  intro e hmem
  obtain ⟨d, hd, rfl⟩ := List.mem_map.mp (OrderedMap.mem_entries_ofList hmem)
  obtain ⟨r, hr, rfl⟩ := List.mem_map.mp hd
  apply (rising_observe digest h hm r hr).imp_left
  intro hstrong
  have habs := hstrong.trans (le_abs_self _)
  simp only [Edge.arc, Coef.abs, cut, decay]
  linarith

lemma ranking_onGraph (h : FromPass S o) (sig : String) (hon : ¬ OffGraph cfg db o) :
    mergedRanking (.ofList [(sig, (observe digest cfg db o).2)]) =
      (observe digest cfg db o).2.rootCauseRanking := by
  rw [offGraph_iff digest] at hon
  rw [mergedRanking_single, ranking_observe]
  by_cases hv : (observe digest cfg db o).2.findings ≠ [] ∧ (observe digest cfg db o).2.edges ≠ []
  · have hs : (observe digest cfg db o).2.symptoms.filter
        (· ∈ nodes (observe digest cfg db o).2.graph) ≠ [] := fun hs => hon ⟨hv.1, hv.2, hs⟩
    rw [if_pos hv, if_neg (by simp only [hv.1, hv.2, hs, or_self, not_false_eq_true])]
    apply rankRootCauses_congr
    · intro n hn
      simp [hn]
    · exact fun n _ => rfl
  · rw [if_neg hv, if_pos (by tauto)]
    exact (verdict_fromPass h (pass_unranked digest hv)).1.symm

end Verdict

theorem single_signal_merge_iff (S : Stats) (digest : CaseKey → String) (cfg : MemoryConfig)
    (xs : List Observation) (o : Observation) (sig : String) (primary : Option String)
    (hxs : ∀ x ∈ xs, FromPass S x) (ho : FromPass S o) :
    let db := Runs.final (observe digest cfg) .empty xs
    let g := (observe digest cfg db o).2
    let merged := mergeGraphs (.ofList [(sig, g)]) primary
    (merged.rootCauseRanking = g.rootCauseRanking ∧ merged.blastRadius = g.blastRadius) ↔
      ¬ OffGraph cfg db o := by
  intro db g merged
  constructor
  · rintro ⟨hrank, -⟩ hoff
    have hm : Grounded (observe digest cfg db o).1.edgeMemory := by
      rw [edgeMemory_observe]
      exact updateEdges_grounded (grounded_run digest xs hxs) (strong_of_fromPass ho)
    obtain ⟨-, -, hs⟩ := (offGraph_iff digest).mp hoff
    apply ranking_offGraph digest ho hm hoff
    refine hrank.symm.trans ((mergedRanking_single sig g).trans ?_)
    rw [if_pos (Or.inr (Or.inr hs))]
  · intro hon
    have hrank : merged.rootCauseRanking = g.rootCauseRanking := ranking_onGraph digest ho sig hon
    refine ⟨hrank, ?_⟩
    have hblast : merged.blastRadius = blastOfTop g.graph g.rootCauseRanking := by
      rw [← hrank, ← unionGraph_single sig g]
      rfl
    rw [hblast, blast_observe]
    split_ifs with hv
    · rfl
    · obtain ⟨hr, hb⟩ := verdict_fromPass ho (pass_unranked digest hv)
      have hg : g.rootCauseRanking = [] := by
        rw [ranking_observe, if_neg hv, hr]
      rw [hg, hb]
      rfl

theorem single_signal_merge_iff_storm :
    let g := (observe (fun _ => "c0") {} .empty (passObservation stormInput)).2
    let merged := mergeGraphs (.ofList [("psi_io", g)]) none
    g.rootCauseRanking ≠ [] ∧ merged.rootCauseRanking = g.rootCauseRanking ∧
      merged.blastRadius = g.blastRadius := by
  intro g merged
  have hpass : FromPass momentStats (passObservation stormInput) :=
    ⟨stormInput, runPass_ok (by decide +kernel), rfl, rfl⟩
  have hon : ¬ OffGraph {} .empty (passObservation stormInput) := by
    obtain ⟨f, hf, e, he, hp⟩ : ∃ f ∈ (passObservation stormInput).graph.findings,
        ∃ e ∈ (passObservation stormInput).graph.edges, f.pod = e.dst := by decide +kernel
    exact fun hoff => (hoff.live f hf e he).2 hp
  exact ⟨by decide +kernel, (single_signal_merge_iff momentStats (fun _ => "c0") {} [] _ "psi_io" none
    (by simp) hpass).mpr hon⟩

def islandInput : PassInput String where
  vectors := .ofList [("cooling-monitor-5f-x1", stepVec 24 0), ("timescaledb-7c-z9", stepVec 24 0),
    ("edge-gateway-1a-b2", stepVec 12 12)]
  witness := ⟨[], [], [s("cooling-monitor-5f-x1", "timescaledb-7c-z9")], []⟩
  sloBreach := []
  caps := .empty
  window := none
  writeVectors := .empty
  baselines := none
  recent := none

theorem single_signal_merge_differs : FromPass momentStats (passObservation islandInput) ∧
    let g := (observe (fun _ => "c0") {} (Runs.final (observe (fun _ => "c0") {}) .empty [])
      (passObservation islandInput)).2
    g.rootCauseRanking = [⟨"cooling-monitor-5f-x1", 1, none⟩] ∧
      (mergeGraphs (.ofList [("psi_io", g)]) none).rootCauseRanking = [] := by
  refine ⟨⟨islandInput, runPass_ok (by decide +kernel), rfl, rfl⟩, ?_, ?_⟩
  · decide +kernel
  · decide +kernel

end CausalEngine.Memory
