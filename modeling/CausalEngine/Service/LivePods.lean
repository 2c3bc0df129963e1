import CausalEngine.Correlation.VictimPaths
import CausalEngine.Memory.MergedBlame
import CausalEngine.Memory.Rendering
import CausalEngine.Service.Loop

/-! Only live pods are served. Memory outlives pods and so does the window, but every pod that a served graph names has
a recent series in the reply of that very poll. -/

namespace CausalEngine.Service

open Foundations Correlation Memory DiGraph PassInput Components

def Live (cfg : ServiceConfig) (window : Window) (signal pod : String) : Prop :=
  ∃ e ∈ window.entries, seriesKey cfg e.1 = some (signal, pod) ∧ 12 ≤ (points e.2).length ∧
    latest cfg window - 2 * cfg.gridStepS ≤ lastTime (points e.2)

def OnGraph (g : MergedGraph) (pod : String) : Prop := ∃ e ∈ g.edges, pod = e.item.edge.src ∨ pod = e.item.edge.dst

structure Grounded (cfg : LoopConfig) (window : Window) (g : MergedGraph) : Prop where
  edges : ∀ e ∈ g.edges, e.signal ∈ cfg.signals ∧ Live cfg.toServiceConfig window e.signal e.item.edge.src ∧
    Live cfg.toServiceConfig window e.signal e.item.edge.dst
  findings : ∀ f ∈ g.findings, f.signal ∈ cfg.signals ∧ Live cfg.toServiceConfig window f.signal f.item.pod
  roots : ∀ c ∈ g.rootCauseRanking, OnGraph g c.pod
  victims : ∀ b ∈ g.blastRadius, OnGraph g b.pod ∧ ∃ top, g.rootCauseRanking.head? = some top ∧ b.pod ≠ top.pod

def Served.Grounded (cfg : LoopConfig) (window : Window) : Served → Prop
  | .error => True
  | .graph merged incipient => (∀ g ∈ merged, Service.Grounded cfg window g) ∧
    ∀ f ∈ incipient, Live cfg.toServiceConfig window cfg.forecastSignal f.pod ∧
      Live cfg.toServiceConfig window cfg.forecastLimit f.pod

section Inputs

variable {F : LineFit} {cfg : ServiceConfig} {window : Window} {events : List Event} {signal pod : String}

lemma live_of_vector {vectors : OrderedMap String Vec} {x : Vec}
    (hv : (buildInputs cfg window events).1.get? signal = some vectors) (hx : vectors.get? pod = some x) :
    Live cfg window signal pod := by
  obtain ⟨pts, hpts, hx⟩ := series_of_vector hv hx
  obtain ⟨e, he, hkey, rfl, hlen⟩ := mem_raw hpts
  refine ⟨e, he, hkey, hlen, ?_⟩
  rw [toVector] at hx
  split_ifs at hx with hstale
  exact not_lt.mp hstale

lemma live_of_key (h : pod ∈ (((buildInputs cfg window events).1.get? signal).getD .empty).keys) :
    Live cfg window signal pod := by
  cases hv : (buildInputs cfg window events).1.get? signal with
  | none =>
    rw [hv] at h
    exact absurd h List.not_mem_nil
  | some vectors =>
    rw [hv, Option.getD_some] at h
    obtain ⟨x, hx⟩ := (OrderedMap.mem_keys _ _).mp h
    exact live_of_vector hv hx

lemma limit_of_warning {limits : OrderedMap String ℚ} {horizonS minFrac : ℚ} {tail : ℕ} {x : Vec}
    (h : (incipientFinding F limits horizonS tail minFrac pod x).isSome = true) : pod ∈ limits.keys := by
  rw [OrderedMap.mem_keys]
  rw [incipientFinding] at h
  cases hl : limits.get? pod with
  | none => simp [hl] at h
  | some limit => exact ⟨limit, rfl⟩

lemma incipient_live {f : Incipient} (hf : f ∈ oomWarnings cfg F window events) :
    Live cfg window cfg.forecastSignal f.pod ∧ Live cfg window cfg.forecastLimit f.pod := by
  obtain ⟨x, hx, hsome⟩ := warned_iff.mp ⟨f, hf, rfl⟩
  refine ⟨live_of_key ((OrderedMap.mem_keys _ _).mpr ⟨x, hx⟩), ?_⟩
  obtain ⟨limit, hlimit⟩ := (OrderedMap.mem_keys _ _).mp (limit_of_warning hsome)
  rw [OrderedMap.get?_filterMapVals] at hlimit
  obtain ⟨v, hv, -⟩ := Option.bind_eq_some_iff.mp hlimit
  exact live_of_key ((OrderedMap.mem_keys _ _).mpr ⟨v, hv⟩)

end Inputs

section Pass

variable {S : Stats} {cfg : LoopConfig} {mc : MemoryConfig} {db : Db} {window : Window} {events : List SignalEvent}

lemma witnessFor_ends {signal : String} {vectors : OrderedMap String Vec} {a b : String}
    (h : (witnessFor cfg signal vectors).couplesSource a b = true) : a ∈ vectors.keys := by
  have hpairs : ∀ q ∈ pairs vectors.keys, s(q.1, q.2) = s(a, b) → a ∈ vectors.keys := by
    intro q hq heq
    obtain ⟨hfst, hsnd⟩ := mem_of_mem_pairs hq
    rcases Sym2.eq_iff.mp heq with ⟨rfl, -⟩ | ⟨-, rfl⟩
    · exact hfst
    · exact hsnd
  rcases ((witnessFor cfg signal vectors).couplesSource_iff a b).mp h with hnet | hshared | hnode
  · simp [witnessFor, Witness.networkLinked] at hnet
  · simp only [witnessFor] at hshared
    split_ifs at hshared
    · obtain ⟨q, hq, heq⟩ := List.mem_map.mp hshared
      exact hpairs q (List.mem_of_mem_filter hq) heq
    · exact absurd hshared List.not_mem_nil
  · simp only [witnessFor] at hnode
    split_ifs at hnode
    · exact absurd hnode List.not_mem_nil
    · obtain ⟨q, hq, heq⟩ := List.mem_map.mp hnode
      exact hpairs q hq heq

lemma edge_ends {e : Edge String} (he : e ∈ (signalInput cfg mc db window events).edges S) :
    e.src ∈ (signalInput cfg mc db window events).vectors.keys ∧
      e.dst ∈ (signalInput cfg mc db window events).vectors.keys := by
  set i := signalInput cfg mc db window events
  rcases (i.mem_edges S).mp he with hsource | ⟨hpsi, -⟩
  · obtain ⟨-, -, hcouples, hactive, -⟩ := i.sourceEdge_spec S ((i.mem_sourceEdges S).mp hsource)
    exact ⟨witnessFor_ends hcouples, i.mem_vectors_of_active hactive⟩
  · obtain ⟨a, b, ha, hb, -, hedge⟩ := (i.mem_psiEdges S).mp hpsi
    rcases Sym2.eq_iff.mp (i.psiEdge_pair S hedge) with ⟨hsrc, hdst⟩ | ⟨hsrc, hdst⟩
    · rw [hsrc, hdst]
      exact ⟨ha, hb⟩
    · rw [hsrc, hdst]
      exact ⟨hb, ha⟩

lemma rendered_pods (digest : CaseKey → String) {o : Observation} {ts now : ℚ}
    (ho : signalObservation S cfg mc db window ts now events = some o) :
    (∀ r ∈ (observe digest mc db o).2.edges, Live cfg.toServiceConfig window mc.signal r.edge.src ∧
      Live cfg.toServiceConfig window mc.signal r.edge.dst) ∧
    ∀ f ∈ (observe digest mc db o).2.findings, Live cfg.toServiceConfig window mc.signal f.pod := by
  obtain ⟨g, hg, rfl⟩ := Option.map_eq_some_iff.mp ho
  rw [signalPass] at hg
  split_ifs at hg
  obtain rfl := runPass_eq hg
  have hlive : ∀ pod, pod ∈ (signalInput cfg mc db window events).vectors.keys →
      Live cfg.toServiceConfig window mc.signal pod := fun pod => live_of_key
  constructor
  · intro r hr
    rw [edges_observe] at hr
    rcases List.mem_append.mp hr with hr | hr
    · obtain ⟨e, he, rfl⟩ := List.mem_map.mp hr
      obtain ⟨hsrc, hdst⟩ := edge_ends he
      exact ⟨hlive _ hsrc, hlive _ hdst⟩
    · obtain ⟨row, -, hrow⟩ := List.mem_filterMap.mp hr
      obtain ⟨hsrc, hdst, -⟩ := mem_heldEdge hrow
      exact ⟨hlive _ (wlPod_mem hsrc), hlive _ (wlPod_mem hdst)⟩
  · intro f hf
    rw [findings_observe] at hf
    have hactive := (mem_active _).mpr ⟨f, (List.mem_insertionSort _).mp hf, rfl⟩
    exact hlive _ (mem_vectors_of_active _ hactive)

end Pass

section Merged

variable {perSignal : OrderedMap String MemoryGraph} {primary : Option String}

lemma ranked_onGraph {c : RootCause String} (h : c ∈ mergedRanking perSignal) :
    c.pod ∈ nodes (unionGraph perSignal) := by
  rw [mergedRanking] at h
  split_ifs at h
  · exact absurd h List.not_mem_nil
  · rw [rankRootCauses] at h
    split_ifs at h
    · exact absurd h List.not_mem_nil
    · obtain ⟨s, hs, hc⟩ := mem_ranked h
      rw [← hc]
      exact ((mem_scores _).mp hs).1

lemma path_last {g : DiGraph String} {root pod : String} {p : Path String} (hp : IsPath g root p) (hne : pod ≠ root)
    (hlast : (p.pods root).getLast? = some pod) : pod ∈ nodes g := by
  induction p generalizing root with
  | nil => exact absurd (by simpa [Path.pods] using hlast.symm) hne
  | cons hop p ih =>
    by_cases hhop : pod = hop.1
    · exact hhop ▸ (node_of_entry hp.1).2
    · exact ih hp.2 hhop (by simpa [Path.pods] using hlast)

lemma victim_onGraph {g : DiGraph String} {root : String} {b : Impact String} (hb : b ∈ blastRadius g root) :
    b.pod ≠ root ∧ b.pod ∈ nodes g := by
  obtain ⟨p, hp, -, hlast, -⟩ := path_of_victim hb
  have hne := (impact_of_listed hb).1
  exact ⟨hne, path_last hp hne hlast⟩

lemma merged_onGraph {pod : String} (h : pod ∈ nodes (unionGraph perSignal)) :
    OnGraph (mergeGraphs perSignal primary) pod := mem_nodes_unionGraph.mp h

lemma merged_victims {b : Impact String} (hb : b ∈ (mergeGraphs perSignal primary).blastRadius) :
    OnGraph (mergeGraphs perSignal primary) b.pod ∧
      ∃ top, (mergeGraphs perSignal primary).rootCauseRanking.head? = some top ∧ b.pod ≠ top.pod := by
  have hb : b ∈ blastOfTop (unionGraph perSignal) (mergedRanking perSignal) := hb
  rw [blastOfTop] at hb
  cases htop : (mergedRanking perSignal).head? with
  | none =>
    rw [htop] at hb
    exact absurd hb List.not_mem_nil
  | some top =>
    rw [htop] at hb
    obtain ⟨hne, hnode⟩ := victim_onGraph hb
    exact ⟨merged_onGraph hnode, top, htop, hne⟩

end Merged

section Boot

variable {cfg : LoopConfig} {env : MemoryConfig} {memory : String → Connection Db}

lemma bootstrap_empty (mc : MemoryConfig) (db : Db) :
    (bootstrapGraph mc db).edges = [] ∧ (bootstrapGraph mc db).findings = [] := by
  have hheld : heldEdges mc db.edgeMemory ⟨⟨[], [], [], [], ⟨0, 0, 0⟩⟩, .empty, none, 0, 0⟩ = [] := by
    rw [List.eq_nil_iff_forall_not_mem]
    intro r hr
    obtain ⟨row, -, hrow⟩ := List.mem_filterMap.mp hr
    exact List.not_mem_nil (wlPod_mem (mem_heldEdge hrow).1)
  exact ⟨by rw [bootstrapGraph, render, hheld]; rfl, rfl⟩

lemma bootGraph_empty : (bootGraph cfg env memory).edges = [] ∧ (bootGraph cfg env memory).findings = [] ∧
    (bootGraph cfg env memory).rootCauseRanking = [] ∧ (bootGraph cfg env memory).blastRadius = [] := by
  rw [bootGraph]
  set perSignal : OrderedMap String MemoryGraph :=
    .ofList (cfg.signals.map fun s => (s, bootstrapGraph (memoryConfig env s) (memory s).current))
  have hempty : ∀ e ∈ perSignal.entries, e.2.edges = [] ∧ e.2.findings = [] := by
    intro e he
    obtain ⟨s, -, rfl⟩ := List.mem_map.mp (OrderedMap.mem_entries_ofList he)
    exact bootstrap_empty _ _
  have hedges : unionEdges perSignal = [] := by
    rw [unionEdges, List.flatMap_eq_nil_iff]
    intro e he
    rw [(hempty e he).1, List.map_nil]
  have hfindings : unionFindings perSignal = [] := by
    rw [unionFindings, List.flatMap_eq_nil_iff]
    intro e he
    rw [(hempty e he).2, List.map_nil]
  have hranking : mergedRanking perSignal = [] := if_pos (Or.inl hedges)
  refine ⟨hedges, hfindings, hranking, ?_⟩
  rw [mergeGraphs, hranking]
  rfl

end Boot

section Poll

variable {S : Stats} {digest : CaseKey → String} {cfg : LoopConfig} {env : MemoryConfig} {reply : Reply}
  {memory : String → Connection Db} {perSignal : OrderedMap String MemoryGraph}

lemma rendered_live (h : (stepUntil (passSignal S digest cfg env reply) memory .empty cfg.signals).2 = some perSignal) :
    ∀ e ∈ perSignal.entries, e.1 ∈ cfg.signals ∧
      (∀ r ∈ e.2.edges, Live cfg.toServiceConfig reply.window e.1 r.edge.src ∧
        Live cfg.toServiceConfig reply.window e.1 r.edge.dst) ∧
      ∀ f ∈ e.2.findings, Live cfg.toServiceConfig reply.window e.1 f.pod := by
  intro e he
  obtain ⟨hsignal, c, hc⟩ := (mem_stepUntil _ h he).resolve_left (by simp)
  have hsame : (memoryConfig env e.1).signal = e.1 := by
    rw [memoryConfig]
    split_ifs <;> rfl
  rw [passSignal] at hc
  cases ho : signalObservation S cfg (memoryConfig env e.1) c.current reply.window (reply.ts e.1) (reply.now e.1)
      reply.events with
  | none => simp [ho] at hc
  | some o =>
    rw [ho] at hc
    dsimp only at hc
    split_ifs at hc
    have hpods := rendered_pods digest ho
    rw [hsame] at hpods
    rw [← Outcome.value.inj hc]
    exact ⟨hsignal, hpods⟩

lemma served_grounded {g : MergedGraph}
    (h : (stepUntil (passSignal S digest cfg env reply) memory .empty cfg.signals).2 = some perSignal)
    (hg : g ∈ if perSignal.entries = [] then none else some (mergeGraphs perSignal cfg.signals.head?)) :
    Grounded cfg reply.window g := by
  split_ifs at hg with hnil
  · simp at hg
  obtain rfl := Option.some.inj hg
  refine ⟨?_, ?_, fun c hc => merged_onGraph (ranked_onGraph hc), fun b hb => merged_victims hb⟩
  · intro e he
    obtain ⟨p, hp, he⟩ := List.mem_flatMap.mp he
    obtain ⟨r, hr, rfl⟩ := List.mem_map.mp he
    exact ⟨(rendered_live h p hp).1, (rendered_live h p hp).2.1 r hr⟩
  · intro f hf
    obtain ⟨p, hp, hf⟩ := List.mem_flatMap.mp hf
    obtain ⟨d, hd, rfl⟩ := List.mem_map.mp hf
    exact ⟨(rendered_live h p hp).1, (rendered_live h p hp).2.2 d hd⟩

end Poll

/-- Until the first poll nothing is drawn and nobody blamed, whatever the memories hold. From then on every pod that is
served stands on an edge, a finding or a forecast of the poll, and these name live pods only. -/
theorem served_graph_grounded (S : Stats) (F : LineFit) (digest : CaseKey → String) (cfg : LoopConfig)
    (env : MemoryConfig) (memory : String → Connection Db) (reply : Reply) :
    ((bootGraph cfg env memory).edges = [] ∧ (bootGraph cfg env memory).findings = [] ∧
      (bootGraph cfg env memory).rootCauseRanking = [] ∧ (bootGraph cfg env memory).blastRadius = []) ∧
    Served.Grounded cfg reply.window (poll S F digest cfg env memory (some reply)).2 := by
  refine ⟨bootGraph_empty, ?_⟩
  rw [poll]
  dsimp only
  cases hout : (stepUntil (passSignal S digest cfg env reply) memory .empty cfg.signals).2 with
  | none => exact trivial
  | some perSignal =>
    rw [Option.elim_some]
    split_ifs
    · exact trivial
    · exact ⟨fun g hg => served_grounded hout hg, fun f hf => incipient_live hf⟩

end CausalEngine.Service
