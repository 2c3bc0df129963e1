import CausalEngine.Foundations.KeyedBest
import CausalEngine.Foundations.Selection
import CausalEngine.Correlation.Gate
import CausalEngine.Correlation.Ranking

/-! One correlation pass: onsets, event centre, findings, psi edges, source edges, verdict. Pods are
compared by name only to fix the order of enumeration. -/

namespace CausalEngine.Correlation

open Foundations

def rSrc : ℚ := 5 / 10

def strongOnsets (x : Vec) : List Onset := (cusumOnsets x).filter fun o => 3 ≤ |o.zpeak|

def strongest (ons : List Onset) : Option Onset := ons.argmax fun o => |o.zpeak|

def nearest (centre : Option ℕ) (ons : List Onset) : Option Onset :=
  match centre with
  | some c => ons.argmin fun o => ((o.idx : ℤ) - c).natAbs
  | none => ons.head?

section WriterEdge

variable {Pod : Type} [DecidableEq Pod]

def writerEdge (S : Stats) (src dst : Pod) (wsrc vdst : Vec) (w : Witness Pod)
    (wOnset vOnset : Option ℚ) : Option (Edge Pod) :=
  let kinds := (w.kinds src dst).filter (· ∈ sourceCouplingKinds)
  let prof := lagProfile S wsrc vdst
  if kinds = [] then none
  else
    match prof.entries.argmax fun e => e.2.val with
    | none => none
    | some (lag, r) =>
      if r.val < rSrc ∨ adjacentSupport prof lag rAdj = false then none
      else if tooLate wOnset vOnset then none
      else some ⟨src, dst, r.round 3, lag, .write :: kinds ++ temporalEvidence wOnset vOnset⟩

end WriterEdge

def edgePref {Pod : Type} (e : Edge Pod) : ℕ ×ₗ ℚ := toLex (if e.isSource then 1 else 0, |e.r.val|)

def edgeKey {Pod : Type} (e : Edge Pod) : Pod ×ₗ Pod := toLex (e.src, e.dst)

def oneEdgePerPair {Pod : Type} [LinearOrder Pod] (edges : List (Edge Pod)) : List (Edge Pod) :=
  (bestByKey Edge.pair edgePref edges).values.insertionSort fun a b => edgeKey a ≤ edgeKey b

structure PassInput (Pod : Type) where
  vectors : OrderedMap Pod Vec
  witness : Witness Pod
  sloBreach : List Pod
  caps : OrderedMap Pod ℚ
  window : Option ℕ
  writeVectors : OrderedMap Pod Vec
  baselines : Option (OrderedMap Pod (Option ℚ))
  recent : Option ℕ

namespace PassInput

variable {Pod : Type} [LinearOrder Pod] (S : Stats) (i : PassInput Pod)

def deviates (pod : Pod) (vec : Vec) : Bool :=
  match i.baselines with
  | none => true
  | some b => (b.get? pod).join.any fun thr => thr < percentile (takeLast (i.recent.getD 0) vec) 90

def rawOnsetsOf (pod : Pod) (vec : Vec) : Option (List Onset) :=
  if strongOnsets vec = [] then none
  else if i.deviates pod vec then some (strongOnsets vec) else none

def rawOnsets : OrderedMap Pod (List Onset) := i.vectors.filterMapVals i.rawOnsetsOf

def onsetPods : List Pod := i.rawOnsets.keys

def coupledPods : List Pod :=
  i.onsetPods.filter fun p => i.onsetPods.any fun q => q ≠ p && i.witness.couples p q

def centrePods : List Pod := if i.coupledPods = [] then i.onsetPods else i.coupledPods

def peakOnset (p : Pod) : Option Onset := (i.rawOnsets.get? p).bind strongest

def strength (p : Pod) : ℚ := (i.peakOnset p).elim (-1) fun o => |o.zpeak|

def centrePod : Option Pod := i.centrePods.argmax i.strength

def centreIdx : Option ℕ := (i.centrePod.bind i.peakOnset).map Onset.idx

def finding (pod : Pod) (vec : Vec) : Option (Finding Pod) :=
  (i.rawOnsetsOf pod vec).bind fun ons => (nearest i.centreIdx ons).map fun ev =>
    ⟨pod, classify vec ev.idx (i.caps.get? pod), ev.idx * dtS, min (|ev.zpeak| / 10) 1, ons.length⟩

def findings : OrderedMap Pod (Finding Pod) := i.vectors.filterMapVals i.finding

def onsetS : OrderedMap Pod ℚ := i.findings.mapVals fun _ f => f.onsetS

def writeOnsetS : OrderedMap Pod ℚ :=
  i.writeVectors.filterMapVals fun _ wv =>
    (nearest i.centreIdx (strongOnsets wv)).map fun ev => ev.idx * dtS

def ringLength : ℕ := (i.vectors.values.headD []).length

def sliceStart (c w : ℕ) : ℕ := (max 0 (min ((c : ℤ) - w / 3) (i.ringLength - w))).toNat

def analysed (x : Vec) : Vec :=
  match i.window, i.centreIdx with
  | some w, some c => if w = 0 then x else slice (i.sliceStart c w) w x
  | _, _ => x

def cvec (p : Pod) : Vec := i.analysed ((i.vectors.get? p).getD [])

def writeCvec : OrderedMap Pod Vec := i.writeVectors.mapVals fun _ => i.analysed

def active : List Pod := i.findings.keys

def disturbed : Bool := !i.active.isEmpty

def pods : List Pod := i.vectors.keys.insertionSort (· ≤ ·)

def psiEdge (a b : Pod) : Option (Edge Pod) :=
  if i.witness.couples a b = false then none
  else if a ∉ i.active ∧ b ∉ i.active ∧ i.disturbed = false then none
  else
    let d := bestDirected S (i.cvec a) (i.cvec b)
    if d.forward then acceptEdge a b d.r d.lagS d.profile i.witness i.onsetS
    else acceptEdge b a d.r d.lagS d.profile i.witness i.onsetS

def psiEdges : List (Edge Pod) := (pairs i.pods).filterMap fun p => i.psiEdge S p.1 p.2

def writeAct (p : Pod) : ℚ := ((i.writeCvec.get? p).map fun wv => maximum (wv.map abs)).getD 0

def writers : List Pod := i.writeCvec.keys.insertionSort (· ≤ ·)

def sourceEdge (w v : Pod) : Option (Edge Pod) :=
  if w ∉ i.writeOnsetS.keys then none
  else if v = w ∨ i.witness.couplesSource w v = false then none
  else if v ∉ i.active then none
  else if i.writeAct w ≤ i.writeAct v then none
  else writerEdge S w v ((i.writeCvec.get? w).getD []) (i.cvec v) i.witness (i.writeOnsetS.get? w)
    (i.onsetS.get? v)

def sourceEdges : List (Edge Pod) := i.writers.flatMap fun w => i.pods.filterMap (i.sourceEdge S w)

def edges : List (Edge Pod) :=
  if i.writeVectors.entries = [] then i.psiEdges S else oneEdgePerPair (i.psiEdges S ++ i.sourceEdges S)

def seeds : List Pod :=
  if i.sloBreach = [] then i.active.insertionSort (· ≤ ·) else i.sloBreach

def passGraph : PassGraph Pod :=
  let edges := i.edges S
  let g := buildGraph edges
  let ranking := rankRootCauses g i.seeds i.onsetS
  { findings := i.findings.values.insertionSort fun a b => a.onsetS ≤ b.onsetS
    edges := edges
    rootCauseRanking := ranking
    blastRadius := ranking.head?.elim [] fun c => blastRadius g c.pod
    passMeta := ⟨i.vectors.keys.length, i.active.length, edges.length⟩ }

end PassInput

-- one pass. It fails where the peak of an empty write series is asked for
def runPass {Pod : Type} [LinearOrder Pod] (S : Stats) (i : PassInput Pod) : Option (PassGraph Pod) :=
  if [] ∈ i.writeCvec.values then none else some (i.passGraph S)

end CausalEngine.Correlation
