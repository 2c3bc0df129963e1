import CausalEngine.Correlation.Renaming
import CausalEngine.Memory.CaseLibrary

/-! Histories that differ by the names of the pods, as after restarts. A witness is a set, so the
renamed relation may be listed in any order. -/

namespace CausalEngine.Memory

open Foundations Correlation

/-- The second observation is the first on pods of the same workloads under other names. The blank name
is no pod's. -/
structure Renames (f : String → String) (o o' : Observation) : Prop where
  injective : Function.Injective f
  workload : ∀ p, stableWorkload (f p) = stableWorkload p
  blank : f "" = ""
  graph : o'.graph = o.graph.rename f
  vectors : o'.vectors = o.vectors.mapKeys f injective
  witness : (o.witness = none ∧ o'.witness = none) ∨ ∃ w w', o.witness = some w ∧ o'.witness = some w' ∧
    w'.sharedRelation.Perm (w.rename f).sharedRelation
  ts : o'.ts = o.ts

structure SameMemory (db db' : Db) : Prop where
  edges : ∀ key, db'.edgeMemory.get? key = db.edgeMemory.get? key
  cases : db'.cases = db.cases
  baselines : db'.baselines = db.baselines

variable {f : String → String} {o o' : Observation} (cfg : MemoryConfig)

namespace Renames

lemma updateBaselines (h : Renames f o o') (m : BaselineTable) :
    updateBaselines cfg o'.ts o'.vectors m = updateBaselines cfg o.ts o.vectors m := by
  rw [Memory.updateBaselines, Memory.updateBaselines, h.vectors, h.ts, OrderedMap.mapKeys, List.foldl_map]
  apply List.foldl_ext
  intro m e _
  exact learnBaseline_congr cfg o.ts (h.workload e.1) e.2

lemma present (h : Renames f o o') : o'.present = o.present := by
  rw [Observation.present, h.vectors, OrderedMap.keys_mapKeys, List.map_map, Observation.present]
  apply List.map_congr_left
  exact fun p _ => h.workload p

lemma seeds (h : Renames f o o') (key : EdgeKey) :
    seeds cfg o.present o'.witness key = seeds cfg o.present o.witness key := by
  have hkey : ∀ z : Sym2 String, structuralKey cfg o.present (z.map f) = structuralKey cfg o.present z := by
    intro z
    have hz : (z.map f).map stableWorkload = z.map stableWorkload := by
      rw [Sym2.map_map]
      exact congrArg (Sym2.map · z) (funext h.workload)
    simp only [structuralKey, hz]
  rcases h.witness with ⟨hw, hw'⟩ | ⟨w, w', hw, hw', hp⟩
  · rw [hw, hw']
  · rw [hw, hw', Memory.seeds, Memory.seeds, Option.any_some, Option.any_some, hp.any_eq, Witness.rename,
      List.any_map]
    simp only [Function.comp_def, hkey]

lemma edges (h : Renames f o o') {m m' : EdgeTable} (hm : ∀ key, m'.get? key = m.get? key) (key : EdgeKey) :
    (updateEdges cfg o'.present o'.ts o'.witness o'.graph.edges m').get? key =
      (updateEdges cfg o.present o.ts o.witness o.graph.edges m).get? key := by
  have hkey : ∀ e : Edge String, edgeKeyOf cfg (e.rename f) = edgeKeyOf cfg e := by
    intro e
    simp only [edgeKeyOf, Edge.rename, h.workload]
  have hseen : (o.graph.rename f).edges.map (edgeKeyOf cfg) = o.graph.edges.map (edgeKeyOf cfg) := by
    rw [PassGraph.rename, List.map_map]
    exact List.map_congr_left fun e _ => hkey e
  have hmine : (o.graph.rename f).edges.filter (fun e => edgeKeyOf cfg e = key) =
      (o.graph.edges.filter fun e => edgeKeyOf cfg e = key).map (Edge.rename f) := by
    rw [PassGraph.rename, List.filter_map]
    congr 2
    funext e
    simp only [Function.comp_apply, hkey]
  rw [get?_updateEdges, get?_updateEdges, h.graph, h.present, h.ts, h.seeds, hm, hseen, hmine, List.foldl_map]
  rfl

lemma victims (h : Renames f o o') (root : String) :
    victims (o.graph.rename f) root = victims o.graph root := by
  have hstruck : (((o.graph.rename f).blastRadius.filter fun b => b.pod ≠ "" ∧ stableWorkload b.pod ≠ root).map
      fun b => stableWorkload b.pod) = ((o.graph.blastRadius.filter fun b =>
        b.pod ≠ "" ∧ stableWorkload b.pod ≠ root).map fun b => stableWorkload b.pod) := by
    have hblank : ∀ p, f p = "" ↔ p = "" := by
      intro p
      rw [← h.blank, h.injective.eq_iff, h.blank]
    have hkeep : (o.graph.blastRadius.filter fun b => f b.pod ≠ "" ∧ stableWorkload (f b.pod) ≠ root) =
        o.graph.blastRadius.filter fun b => b.pod ≠ "" ∧ stableWorkload b.pod ≠ root := by
      simp only [ne_eq, hblank, h.workload]
    rw [PassGraph.rename, List.filter_map, List.map_map, ← hkeep]
    exact List.map_congr_left fun b _ => h.workload b.pod
  have hdst : ((o.graph.rename f).edges.map fun e => stableWorkload e.dst) =
      o.graph.edges.map fun e => stableWorkload e.dst := by
    rw [PassGraph.rename, List.map_map]
    exact List.map_congr_left fun e _ => h.workload e.dst
  rw [Memory.victims, Memory.victims, hstruck, hdst]

lemma incident (h : Renames f o o') : incident cfg o'.graph = incident cfg o.graph := by
  have hpair : ∀ e : Edge String, workloadPair (e.rename f) = workloadPair e := by
    intro e
    simp only [workloadPair, Edge.rename, h.workload]
  have hsource : ∀ root, ownsSource (o.graph.rename f) root = ownsSource o.graph root := by
    intro root
    rw [ownsSource, PassGraph.rename, List.any_map, ownsSource]
    simp only [Function.comp_def, Edge.rename, h.workload]
  have hwitness : dominantWitness (o.graph.rename f).edges = dominantWitness o.graph.edges := by
    have hev : (o.graph.rename f).edges.flatMap Edge.evidence = o.graph.edges.flatMap Edge.evidence := by
      rw [PassGraph.rename, List.flatMap_map]
      rfl
    rw [dominantWitness, hev, dominantWitness]
  have hlead : leadTime (o.graph.rename f) = leadTime o.graph := by
    simp only [leadTime, PassGraph.rename, List.map_map, List.filter_map]
    rfl
  have hmotif : (o.graph.rename f).edges.map workloadPair = o.graph.edges.map workloadPair := by
    rw [PassGraph.rename, List.map_map]
    exact List.map_congr_left fun e _ => hpair e
  have hlags : (o.graph.rename f).edges.map (fun e => ((workloadPair e).1 ++ "->" ++ (workloadPair e).2, e.lagS)) =
      o.graph.edges.map fun e => ((workloadPair e).1 ++ "->" ++ (workloadPair e).2, e.lagS) := by
    rw [PassGraph.rename, List.map_map]
    apply List.map_congr_left
    intro e _
    simp only [Function.comp_apply, hpair]
    rfl
  have hnil : (o.graph.rename f).edges = [] ↔ o.graph.edges = [] := List.map_eq_nil_iff
  have hroots : (o.graph.rename f).rootCauseRanking.head? =
      o.graph.rootCauseRanking.head?.map fun c => { c with pod := f c.pod } := List.head?_map
  rw [h.graph]
  simp only [Memory.incident, hroots, hnil, hsource, h.victims, hwitness, hlead, hmotif, hlags]
  cases o.graph.rootCauseRanking.head? with
  | none => rfl
  | some c => simp only [Option.map_some, h.workload]

end Renames

variable (digest : CaseKey → String)

lemma observe_renamed {db db' : Db} (hr : SameMemory db db') (h : Renames f o o') :
    SameMemory (observe digest cfg db o).1 (observe digest cfg db' o').1 ∧
      (observe digest cfg db o).2.caseVerdict = (observe digest cfg db' o').2.caseVerdict := by
  refine ⟨⟨?_, ?_, ?_⟩, ?_⟩
  · intro key
    rw [edgeMemory_observe, edgeMemory_observe]
    exact h.edges cfg hr.edges key
  · rw [cases_observe, cases_observe, h.incident, hr.cases, h.ts]
  · rw [baselines_observe, baselines_observe, hr.baselines, h.updateBaselines]
  · rw [caseVerdict_observe, caseVerdict_observe, h.incident, hr.cases, h.ts]

theorem memory_survives_restarts (xs ys : List Observation)
    (h : List.Forall₂ (fun o o' => ∃ f, Renames f o o') xs ys) :
    SameMemory (Runs.final (observe digest cfg) .empty xs) (Runs.final (observe digest cfg) .empty ys) ∧
      (Runs.outputs (observe digest cfg) .empty xs).map MemoryGraph.caseVerdict =
        (Runs.outputs (observe digest cfg) .empty ys).map MemoryGraph.caseVerdict := by
  apply Runs.run_related (observe digest cfg) (R := SameMemory) (I := fun o o' => ∃ f, Renames f o o')
    MemoryGraph.caseVerdict ?_ ⟨fun _ => rfl, rfl, rfl⟩ h
  rintro db db' o o' hr ⟨f, hf⟩
  exact observe_renamed cfg digest hr hf

def restart : Equiv.Perm String := Equiv.swap "cooling-monitor-5f-x1" "cooling-monitor-5f-q8"

def restartedPass : Observation :=
  { stormPass with
    graph := stormPass.graph.rename restart
    vectors := stormPass.vectors.mapKeys restart restart.injective
    witness := stormPass.witness.map (Witness.rename restart) }

lemma stormPass_renamed : Renames restart stormPass restartedPass := by
  refine ⟨restart.injective, ?_, ?_, rfl, rfl, Or.inr ⟨_, _, rfl, rfl, List.Perm.refl _⟩, rfl⟩
  · intro p
    simp only [restart, Equiv.swap_apply_def]
    split_ifs with ha hb
    · rw [ha]
      decide
    · rw [hb]
      decide
    · rfl
  · decide

theorem memory_survives_restarts_storm :
    SameMemory (Runs.final (observe stormDigest {}) .empty [stormPass, stormPass])
        (Runs.final (observe stormDigest {}) .empty [stormPass, restartedPass]) ∧
      (Runs.outputs (observe stormDigest {}) .empty [stormPass, stormPass]).map MemoryGraph.caseVerdict =
        (Runs.outputs (observe stormDigest {}) .empty [stormPass, restartedPass]).map MemoryGraph.caseVerdict := by
  apply memory_survives_restarts
  refine .cons ⟨id, ⟨Function.injective_id, fun _ => rfl, rfl, ?_, ?_, ?_, rfl⟩⟩
    (.cons ⟨restart, stormPass_renamed⟩ .nil)
  · rfl
  · rfl
  · exact Or.inr ⟨_, _, rfl, rfl, List.Perm.refl _⟩

end CausalEngine.Memory
