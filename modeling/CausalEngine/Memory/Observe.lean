import CausalEngine.Foundations.KeyedBest
import CausalEngine.Foundations.Runs
import CausalEngine.Correlation.Pipeline
import CausalEngine.Memory.Baselines
import CausalEngine.Memory.Cases
import CausalEngine.Memory.Edges

/-! One observation: learn the baselines, update the edges, file the incident, render the graph with
the edges that memory holds. -/

namespace CausalEngine.Memory

open Foundations Correlation

structure Observation where
  graph : PassGraph String
  vectors : OrderedMap String Vec
  witness : Option (Witness String)
  ts : ℚ
  now : ℚ

inductive Origin
  | live | memory
deriving DecidableEq

structure Belief where
  confidence : ℚ
  state : EdgeState
  hits : ℕ
  source : Origin
  baseConf : Option ℚ
  lastSeenS : Option ℚ
deriving DecidableEq

structure RenderedEdge where
  edge : Edge String
  belief : Option Belief
deriving DecidableEq

structure MemoryStats where
  edgeMemory : ℕ
  visibleMemoryEdges : ℕ
  cases : ℕ
  families : ℕ
  openMistakes : ℕ
deriving DecidableEq

structure MemoryGraph where
  findings : List (Finding String)
  edges : List RenderedEdge
  rootCauseRanking : List (RootCause String)
  blastRadius : List (Impact String)
  passMeta : PassMeta
  heldEdges : ℕ
  caseVerdict : Option CaseVerdict
  stats : MemoryStats
deriving DecidableEq

namespace Observation

variable (o : Observation)

def present : List String := o.vectors.keys.map stableWorkload

def wlPod : OrderedMap String String := .ofList (o.vectors.keys.map fun p => (stableWorkload p, p))

end Observation

section Render

variable (cfg : MemoryConfig) (m : EdgeTable)

def liveEdge (e : Edge String) : RenderedEdge :=
  ⟨e, (m.get? (edgeKeyOf cfg e)).map fun row =>
    ⟨roundTo 3 row.confidence, row.state, row.hits, .live, none, none⟩⟩

def EdgeKey.pair (k : EdgeKey) : Sym2 String := s(k.src, k.dst)

def heldRows (livePairs : List (Sym2 String)) : List (EdgeKey × EdgeRow) :=
  let rows := m.entries.filter fun e =>
    e.1.signal = cfg.signal ∧ (e.2.visible = true ∨ 0 < e.2.baseConf) ∧ e.1.pair ∉ livePairs
  (bestByKey (fun e => e.1.pair) (fun e => e.2.confidence) rows).values

def heldEdge (wlPod : OrderedMap String String) (now : ℚ) (e : EdgeKey × EdgeRow) : Option RenderedEdge :=
  (wlPod.get? e.1.src).bind fun src => (wlPod.get? e.1.dst).map fun dst =>
    ⟨⟨src, dst, e.2.r.round 3, e.2.lagS, e.2.evidence⟩,
      some ⟨roundTo 3 e.2.confidence, e.2.state, e.2.hits, .memory, some (roundTo 3 e.2.baseConf),
        some (roundTo 1 (now - e.2.lastSeenTs))⟩⟩

def liveEdges (o : Observation) : List RenderedEdge := o.graph.edges.map (liveEdge cfg m)

def heldEdges (o : Observation) : List RenderedEdge :=
  (heldRows cfg m (o.graph.edges.map fun e => (edgeKeyOf cfg e).pair)).filterMap (heldEdge o.wlPod o.now)

def findingOnsets (fs : List (Finding String)) : OrderedMap String ℚ :=
  .ofList (fs.map fun f => (f.pod, f.onsetS))

def blastOfTop (g : DiGraph String) (ranking : List (RootCause String)) : List (Impact String) :=
  ranking.head?.elim [] fun c => blastRadius g c.pod

def stats (db : Db) : MemoryStats where
  edgeMemory := db.edgeMemory.entries.length
  visibleMemoryEdges := (db.edgeMemory.values.filter EdgeRow.visible).length
  cases := db.cases.entries.length
  families := (db.cases.entries.map fun e => e.2.familyId.getD e.1).dedup.length
  openMistakes := db.openMistakes

def render (db : Db) (o : Observation) (verdict : Option CaseVerdict) : MemoryGraph :=
  let held := heldEdges cfg db.edgeMemory o
  let edges := liveEdges cfg db.edgeMemory o ++ held
  let fs := o.graph.findings
  let g := buildGraph (edges.map RenderedEdge.edge)
  let ranking :=
    if fs ≠ [] ∧ edges ≠ [] then rankRootCauses g (fs.map Finding.pod) (findingOnsets fs)
    else o.graph.rootCauseRanking
  { findings := fs
    edges := edges
    rootCauseRanking := ranking
    blastRadius := if fs ≠ [] ∧ edges ≠ [] then blastOfTop g ranking else o.graph.blastRadius
    passMeta := o.graph.passMeta
    heldEdges := held.length
    caseVerdict := verdict
    stats := stats db }

end Render

variable (digest : CaseKey → String) (cfg : MemoryConfig)

def remember (db : Db) (o : Observation) : Db × Option CaseVerdict :=
  let learned :=
    { db with
      baselines := updateBaselines cfg o.ts o.vectors db.baselines
      edgeMemory := updateEdges cfg o.present o.ts o.witness o.graph.edges db.edgeMemory }
  let (filed, verdict) := promoteCase digest cfg o.ts o.graph learned
  if o.graph.edges = [] then (filed, verdict)
  else ({ filed with graphSnapshots := filed.graphSnapshots ++ [(o.ts, o.graph)] }, verdict)

def observe (db : Db) (o : Observation) : Db × MemoryGraph :=
  let (db', verdict) := remember digest cfg db o
  (db', render cfg db' o verdict)

def bootstrapGraph (db : Db) : MemoryGraph :=
  render cfg db ⟨⟨[], [], [], [], ⟨0, 0, 0⟩⟩, .empty, none, 0, 0⟩ none

section Observing

variable (db : Db) (o : Observation)

lemma edgeMemory_observe : (observe digest cfg db o).1.edgeMemory =
    updateEdges cfg o.present o.ts o.witness o.graph.edges db.edgeMemory := by
  simp only [observe, remember, promoteCase]
  cases incident cfg o.graph <;> (dsimp only; split_ifs <;> rfl)

lemma baselines_observe : (observe digest cfg db o).1.baselines =
    updateBaselines cfg o.ts o.vectors db.baselines := by
  simp only [observe, remember, promoteCase]
  cases incident cfg o.graph <;> (dsimp only; split_ifs <;> rfl)

lemma cases_observe : (observe digest cfg db o).1.cases =
    (incident cfg o.graph).elim db.cases fun inc => (fileIncident digest cfg o.ts inc db.cases).1 := by
  simp only [observe, remember, promoteCase]
  cases incident cfg o.graph <;> (dsimp only; split_ifs <;> rfl)

lemma caseVerdict_observe : (observe digest cfg db o).2.caseVerdict =
    (incident cfg o.graph).map fun inc => (fileIncident digest cfg o.ts inc db.cases).2 := by
  simp only [observe, remember, promoteCase]
  cases incident cfg o.graph <;> (dsimp only; split_ifs <;> rfl)

lemma caseObservations_observe : (observe digest cfg db o).1.caseObservations =
    db.caseObservations ++ ((incident cfg o.graph).map fun inc =>
      ⟨o.ts, (fileIncident digest cfg o.ts inc db.cases).2.caseId, inc.root, inc.key.victims, o.graph⟩).toList := by
  simp only [observe, remember, promoteCase]
  cases incident cfg o.graph with
  | none => dsimp only; split_ifs <;> simp
  | some inc => dsimp only; split_ifs <;> simp

end Observing

end CausalEngine.Memory
