import CausalEngine.Api.RightSizing
import CausalEngine.Correlation.Forecast
import CausalEngine.Memory.Merge

/-! The verdict that the gateway serves: the merged graph with its pods collapsed to workloads, and the
sentences that are made of it without a language model. -/

namespace CausalEngine.Api

open Foundations Correlation Memory

structure VerdictEdge where
  src : String
  dst : String
  r : ℚ
  lagS : ℤ
  evidence : List Evidence
  signal : Option String
  confidence : Option ℚ
  state : Option EdgeState
  renderWeight : Option ℚ
  source : Option Origin
deriving DecidableEq

structure VerdictFinding where
  pod : String
  shape : Shape
  onsetS : ℚ
  severity : ℚ
deriving DecidableEq

-- what is read of `meta`; the signal may be missing, and it may be there as `null`
structure VerdictMeta where
  signal : Option (Option String)
  caseRegister : Option Register
  pods : Option ℕ
deriving DecidableEq

structure Verdict where
  root : List (RootCause String)
  edges : List VerdictEdge
  blastRadius : List (Impact String)
  findings : List VerdictFinding
  incipient : List Incipient
  verdictMeta : VerdictMeta
deriving DecidableEq

def workload (pod : String) : String := stableWorkload pod

def verdictEdge (e : Tagged RenderedEdge) : VerdictEdge where
  src := workload e.item.edge.src
  dst := workload e.item.edge.dst
  r := e.item.edge.r.val
  lagS := e.item.edge.lagS
  evidence := e.item.edge.evidence
  signal := some e.signal
  confidence := e.item.belief.map Belief.confidence
  state := e.item.belief.map Belief.state
  renderWeight := e.item.belief.map Belief.confidence
  source := e.item.belief.map Belief.source

def graph (g : MergedGraph) (incipient : List Incipient) : Verdict where
  root := g.rootCauseRanking.map fun c => { c with pod := workload c.pod }
  edges := g.edges.map verdictEdge
  blastRadius := g.blastRadius.map fun b => { b with pod := workload b.pod }
  findings := g.findings.map fun f => ⟨workload f.item.pod, f.item.shape, f.item.onsetS, f.item.severity⟩
  incipient := incipient.map fun f => { f with pod := workload f.pod }
  verdictMeta :=
    ⟨some g.mergedMeta.signal, g.mergedMeta.caseVerdict.map CaseVerdict.caseRegister, some g.mergedMeta.pods⟩

structure ApiConfig where
  signal : String := "psi_io"
  ollamaModel : String := "gemma4:e4b-it-qat"

def truncate (q : ℚ) : ℤ := if 0 ≤ q then ⌊q⌋ else ⌈q⌉

section Texts

variable (cfg : ApiConfig) (g : Verdict)

def metaSignal : Option String := g.verdictMeta.signal.getD (some cfg.signal)

def steadyText : String :=
  "Steady state: no causal contention detected across " ++ toString (g.verdictMeta.pods.getD 0) ++ " workloads."

def registerText : Option Register → String
  | some .recurrence => " (recognised as a recurrence of a known case)"
  | some .variant => " (recognised as a variant of a known case)"
  | _ => ""

def etaText (victim : String) : String :=
  match (OrderedMap.ofList (g.blastRadius.map fun b => (b.pod, b.etaS))).get? victim with
  | none => ""
  | some eta => if eta = 0 then "" else ", with impact on " ++ victim ++ " expected in ~" ++ toString eta ++ "s"

def templateNarrative : String :=
  match g.root.head? with
  | none => steadyText g
  | some cause =>
    let leaving := g.edges.filter fun e => e.src = cause.pod
    match (if leaving = [] then g.edges else leaving).argmax fun e => |e.r| with
    | none => steadyText g
    | some e =>
      let ev := if e.evidence = [] then "correlation" else String.intercalate ", " (e.evidence.map Evidence.name)
      cause.pod ++ " is the likely root cause of " ++ (metaSignal cfg g).getD "None" ++
        " contention: its activity correlates with " ++ e.dst ++ " over " ++ ev ++ etaText g e.dst ++
        registerText g.verdictMeta.caseRegister ++ "."

def incipientText (incip : List Incipient) : String :=
  (incip.argmin Incipient.etaS).elim "" fun f =>
    "Early warning: " ++ f.pod ++ " is trending toward its memory limit (" ++ fmtMem f.value ++ " of " ++
      fmtMem f.limit ++ ") — projected OOM in ~" ++ toString (truncate f.etaS) ++ "s."

end Texts

end CausalEngine.Api
