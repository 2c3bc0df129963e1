import CausalEngine.Memory.Observe

/-! The union of the graphs of all signals, ranked anew. -/

namespace CausalEngine.Memory

open Foundations Correlation DiGraph

structure Tagged (α : Type) where
  signal : String
  item : α
deriving DecidableEq

structure MergedMeta where
  signals : List String
  stats : MemoryStats
  heldEdges : ℕ
  caseVerdict : Option CaseVerdict
  signal : Option String
  pods : ℕ
  active : ℕ
  acceptedEdges : ℕ
deriving DecidableEq

structure MergedGraph where
  findings : List (Tagged (Finding String))
  edges : List (Tagged RenderedEdge)
  rootCauseRanking : List (RootCause String)
  blastRadius : List (Impact String)
  mergedMeta : MergedMeta
deriving DecidableEq

def MemoryGraph.graph (g : MemoryGraph) : DiGraph String := buildGraph (g.edges.map RenderedEdge.edge)

section Union

variable (perSignal : OrderedMap String MemoryGraph)

def unionEdges : List (Tagged RenderedEdge) :=
  perSignal.entries.flatMap fun e => e.2.edges.map (Tagged.mk e.1)

def unionFindings : List (Tagged (Finding String)) :=
  perSignal.entries.flatMap fun e => e.2.findings.map (Tagged.mk e.1)

def unionGraph : DiGraph String := buildGraph ((unionEdges perSignal).map fun e => e.item.edge)

-- the symptoms that lie on the graph. With none there is no root: the ranking would fall back to all nodes
def symptoms : List String :=
  ((unionFindings perSignal).map fun f => f.item.pod).filter (· ∈ nodes (unionGraph perSignal))

def mergedRanking : List (RootCause String) :=
  if unionEdges perSignal = [] ∨ unionFindings perSignal = [] ∨ symptoms perSignal = [] then []
  else rankRootCauses (unionGraph perSignal) (symptoms perSignal)
    (findingOnsets ((unionFindings perSignal).map Tagged.item))

def sumStats (gs : List MemoryGraph) : MemoryStats where
  edgeMemory := (gs.map fun g => g.stats.edgeMemory).sum
  visibleMemoryEdges := (gs.map fun g => g.stats.visibleMemoryEdges).sum
  cases := (gs.map fun g => g.stats.cases).sum
  families := (gs.map fun g => g.stats.families).sum
  openMistakes := (gs.map fun g => g.stats.openMistakes).sum

def activeSignal : Option String :=
  (mergedRanking perSignal).head?.bind fun root =>
    ((unionEdges perSignal).find? fun e => e.item.edge.src = root.pod).map Tagged.signal

def mergeGraphs (primary : Option String) : MergedGraph where
  findings := unionFindings perSignal
  edges := unionEdges perSignal
  rootCauseRanking := mergedRanking perSignal
  blastRadius := blastOfTop (unionGraph perSignal) (mergedRanking perSignal)
  mergedMeta :=
    { signals := perSignal.keys.insertionSort (· ≤ ·)
      stats := sumStats perSignal.values
      heldEdges := (perSignal.values.map MemoryGraph.heldEdges).sum
      caseVerdict := (activeSignal perSignal).bind fun sig => (perSignal.get? sig).bind MemoryGraph.caseVerdict
      signal := (activeSignal perSignal).or (primary.or (perSignal.keys.insertionSort (· ≤ ·)).head?)
      pods := (perSignal.values.map fun g => g.passMeta.pods).foldl max 0
      active := ((unionFindings perSignal).map fun f => f.item.pod).dedup.length
      acceptedEdges := (unionEdges perSignal).length }

end Union

end CausalEngine.Memory
