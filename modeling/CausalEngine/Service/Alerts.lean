import CausalEngine.Correlation.SeedNeutrality
import CausalEngine.Correlation.Silence
import CausalEngine.Memory.CaseLibrary
import CausalEngine.Service.Resampling

/-! The pass of one signal as the service runs it. The pods of all alerts are flattened into one breach list,
and that list seeds the ranking of every signal. -/

namespace CausalEngine.Service

open Foundations Correlation Memory PassInput

structure LoopConfig extends ServiceConfig where
  storage : List String := ["cooling-monitor", "dcim-bridge", "log-archiver", "timescaledb"]
  coprMin : ℚ := 1 / 10
  analysisWindow : ℕ := 36
  resetWindow : ℕ := 24

-- an event as the aggregator sends it; the service does not read its signal
structure SignalEvent extends Event where
  signal : Option String

def workload (pod : String) : String := stableWorkload pod

def witnessFor (cfg : LoopConfig) (signal : String) (vectors : OrderedMap String Vec) : Witness String :=
  let pods := vectors.keys
  let hot := pods.filter fun p => cfg.coprMin < maximum (takeLast 6 ((vectors.get? p).getD []))
  let onDisk := (pairs pods).filter fun q => workload q.1 ∈ cfg.storage ∧ workload q.2 ∈ cfg.storage
  { ebpfEdges := []
    psiCopressure := (pairs hot).map fun q => s(q.1, q.2)
    sharedRelation := if signal = "psi_io" then onDisk.map fun q => s(q.1, q.2) else []
    sameNode := if signal = "psi_io" then [] else (pairs pods).map fun q => s(q.1, q.2) }

section Pass

variable (S : Stats) (digest : CaseKey → String) (cfg : LoopConfig) (mc : MemoryConfig) (db : Db) (window : Window)

def signalInput (events : List SignalEvent) : PassInput String :=
  let inputs := buildInputs cfg.toServiceConfig window (events.map SignalEvent.toEvent)
  let vectors := (inputs.1.get? mc.signal).getD .empty
  { vectors := vectors
    witness := witnessFor cfg mc.signal vectors
    sloBreach := inputs.2
    caps := .empty
    window := some cfg.analysisWindow
    writeVectors := ((cfg.signalSources.lookup mc.signal).bind inputs.1.get?).getD .empty
    baselines := some (vectors.mapVals fun pod _ => baselineThreshold mc db.baselines (workload pod))
    recent := some cfg.resetWindow }

lemma signalInput_witness (events : List SignalEvent) : (signalInput cfg mc db window events).witness =
    witnessFor cfg mc.signal (signalInput cfg mc db window events).vectors := rfl

-- a signal without series is skipped
def signalPass (events : List SignalEvent) : Option (PassGraph String) :=
  let i := signalInput cfg mc db window events
  if i.vectors.entries = [] then none else runPass S i

def signalObservation (ts now : ℚ) (events : List SignalEvent) : Option Observation :=
  (signalPass S cfg mc db window events).map fun g =>
    let i := signalInput cfg mc db window events
    ⟨g, i.vectors, some i.witness, ts, now⟩

structure SignalVerdict where
  edges : List (Edge String)
  rootCauseRanking : List (RootCause String)
  blastRadius : List (Impact String)
  cases : CaseTable
  caseVerdict : Option CaseVerdict

def signalVerdict (ts now : ℚ) (events : List SignalEvent) : Option SignalVerdict :=
  (signalObservation S cfg mc db window ts now events).map fun o =>
    let observed := observe digest mc db o
    ⟨o.graph.edges, o.graph.rootCauseRanking, o.graph.blastRadius, observed.1.cases, observed.2.caseVerdict⟩

def SameAlerts (signal : String) (events events' : List SignalEvent) : Prop :=
  ∀ e, e.kind = some "anomaly_candidate" → e.signal = some signal → (e ∈ events ↔ e ∈ events')

variable {S cfg mc db window} {events events' : List SignalEvent}

lemma signalInput_breach : signalInput cfg mc db window events = (signalInput cfg mc db window []).withBreach
    (buildInputs cfg.toServiceConfig window (events.map SignalEvent.toEvent)).2 := rfl

lemma analysed_ne_nil {i : PassInput String} {x : Vec} (hlen : x.length = i.ringLength) (hx : x ≠ []) :
    i.analysed x ≠ [] := by
  simp only [analysed]
  cases hw : i.window with
  | none => exact hx
  | some w =>
    cases i.centreIdx with
    | none => exact hx
    | some c =>
      dsimp only
      split_ifs with h₀
      · exact hx
      · have hpos : 0 < x.length := List.length_pos_iff.mpr hx
        have hslice : 0 < (slice (i.sliceStart c w) w x).length := by
          simp only [slice, List.length_take, List.length_drop, sliceStart]
          omega
        exact List.ne_nil_of_length_pos hslice

lemma getD_vector_length {o : Option String} {x : Vec}
    (hx : x ∈ ((o.bind (buildInputs cfg.toServiceConfig window (events.map SignalEvent.toEvent)).1.get?).getD
      .empty).values) : x.length = gridLength := by
  cases hv : o.bind (buildInputs cfg.toServiceConfig window (events.map SignalEvent.toEvent)).1.get? with
  | none =>
    rw [hv] at hx
    simp [OrderedMap.values] at hx
  | some vectors =>
    rw [hv, Option.getD_some] at hx
    obtain ⟨⟨pod, x⟩, he, rfl⟩ := List.mem_map.mp hx
    obtain ⟨sig, -, hsig⟩ := Option.bind_eq_some_iff.mp hv
    exact vector_length hsig ((vectors.get?_eq_some pod x).mpr he)

lemma signalPass_eq : signalPass S cfg mc db window events =
    if (signalInput cfg mc db window events).vectors.entries = [] then none
    else some ((signalInput cfg mc db window events).passGraph S) := by
  rw [signalPass]
  split_ifs with hnil
  · rfl
  apply runPass_ok
  intro hmem
  have hring : (signalInput cfg mc db window events).ringLength = gridLength := by
    obtain ⟨⟨pod, x⟩, l, hl⟩ := List.exists_cons_of_ne_nil hnil
    have hx : x ∈ (signalInput cfg mc db window events).vectors.values := by simp [OrderedMap.values, hl]
    rw [ringLength, OrderedMap.values, hl]
    exact getD_vector_length (o := some mc.signal) hx
  rw [writeCvec, OrderedMap.values, OrderedMap.mapVals, List.map_map] at hmem
  obtain ⟨⟨pod, x⟩, he, hx⟩ := List.mem_map.mp hmem
  have hlen : x.length = gridLength := getD_vector_length (List.mem_map_of_mem (f := Prod.snd) he)
  have hne : x ≠ [] := List.ne_nil_of_length_pos (hlen ▸ by decide)
  exact analysed_ne_nil (hlen.trans hring.symm) hne hx

lemma breach_single (e : SignalEvent) (h : e.kind = some "anomaly_candidate") :
    (buildInputs cfg.toServiceConfig window ([e].map SignalEvent.toEvent)).2 = [e.pod] := by
  simp [buildInputs, h]

/-- The alerts of other signals leave a pass alone exactly when its window admits edges out of at most one pod. -/
theorem other_alerts_neutral_iff (S : Stats) (digest : CaseKey → String) (cfg : LoopConfig) (mc : MemoryConfig)
    (db : Db) (window : Window) (ts now : ℚ) : (∀ events events', SameAlerts mc.signal events events' →
      signalVerdict S digest cfg mc db window ts now events = signalVerdict S digest cfg mc db window ts now events') ↔
        (signalInput cfg mc db window []).OneOrigin S := by
  constructor
  · intro h
    rw [← single_breach_neutral_iff]
    intro p q
    obtain ⟨other, hother⟩ := exists_ne mc.signal
    let alert (pod : String) : SignalEvent := ⟨⟨pod, some "anomaly_candidate"⟩, some other⟩
    have hnone : ∀ pod e, e.signal = some mc.signal → e ∉ [alert pod] := by
      intro pod e hs he
      obtain rfl := List.mem_singleton.mp he
      exact hother (Option.some.inj hs)
    have hv := h [alert p] [alert q] fun e _ hs => iff_of_false (hnone p e hs) (hnone q e hs)
    have hinput : ∀ pod, signalInput cfg mc db window [alert pod] =
        (signalInput cfg mc db window []).withBreach [pod] := by
      intro pod
      rw [signalInput_breach, breach_single _ rfl]
    simp only [signalVerdict, signalObservation, signalPass_eq, hinput] at hv
    by_cases hnil : (signalInput cfg mc db window []).vectors.entries = []
    · have hact : ∀ breach, ((signalInput cfg mc db window []).withBreach breach).active = [] := by
        intro breach
        simp [active, findings, OrderedMap.filterMapVals, OrderedMap.keys, withBreach, hnil]
      rw [(passGraph_inactive S (hact [p])).ranking, (passGraph_inactive S (hact [q])).ranking]
    · simp only [withBreach, hnil, if_false, Option.map_some, Option.some.injEq, SignalVerdict.mk.injEq] at hv
      exact hv.2.1
  · intro h events events' _
    have hg : (signalInput cfg mc db window events).passGraph S = (signalInput cfg mc db window events').passGraph S :=
      (signalInput cfg mc db window []).passGraph_neutral S h _ _
    simp only [signalVerdict, signalObservation, signalPass_eq, hg]
    rfl

end Pass

/-- The memories that the passes of the service lead to. -/
inductive Reached (S : Stats) (digest : CaseKey → String) (cfg : LoopConfig) (mc : MemoryConfig) : Db → Prop
  | empty : Reached S digest cfg mc .empty
  | pass {db o} (window : Window) (ts now : ℚ) (events : List SignalEvent) : Reached S digest cfg mc db →
      signalObservation S cfg mc db window ts now events = some o → Reached S digest cfg mc (observe digest mc db o).1

def scraped (n : ℕ) (value : ℚ) : List Sample := (List.range n).map fun k => ⟨some (1000 - 5 * k), value⟩

def calmWindow : Window := .ofList [("factory/timescaledb-7c-z9/psi_io", scraped 12 0)]

def rivalWindow : Window := .ofList [("factory/cooling-monitor-6d-a1/psi_io", scraped 12 0),
  ("factory/log-archiver-5f-c3/psi_io", scraped 12 0), ("factory/timescaledb-7c-z9/psi_io", scraped 12 1),
  ("factory/cooling-monitor-6d-a1/io_write", scraped 12 2), ("factory/log-archiver-5f-c3/io_write", scraped 12 2)]

def cpuAlert (pod : String) : SignalEvent := ⟨⟨pod, some "anomaly_candidate"⟩, some "psi_cpu"⟩

def calmRow : ℕ → Option BaselineRow
  | 0 => none
  | n + 1 => some ⟨0, 0, n + 1, 0⟩

def learned (n : ℕ) : Db :=
  { Db.empty with baselines := .ofList ((calmRow n).toList.map fun b => (("timescaledb", "psi_io"), b)) }

def calmVectors : OrderedMap String Vec := .ofList [("timescaledb-7c-z9", List.replicate 180 0)]

def calmObservation : Observation :=
  ⟨⟨[], [], [], [], ⟨1, 0, 0⟩⟩, calmVectors, some ⟨[], [], [], []⟩, 0, 0⟩

section Calm

set_option maxRecDepth 20000 in
lemma calm_vectors (db : Db) : (signalInput {} {} db calmWindow []).vectors = calmVectors := by
  have h : ((((buildInputs {} calmWindow []).1.get? "psi_io").getD .empty).entries = calmVectors.entries) := by
    decide +kernel
  exact OrderedMap.ext h

set_option maxRecDepth 20000 in
lemma calm_onsets : cusumOnsets (List.replicate 180 0) = [] := by decide +kernel

lemma calm_observation (db : Db) : signalObservation momentStats {} {} db calmWindow 0 0 [] = some calmObservation := by
  have hquiet : (signalInput {} {} db calmWindow []).quiet := by
    intro e he
    rw [calm_vectors] at he
    obtain rfl := List.mem_singleton.mp he
    refine Or.inl ?_
    intro o ho
    rw [calm_onsets] at ho
    simp at ho
  have hg : (signalInput {} {} db calmWindow []).passGraph momentStats = ⟨[], [], [], [], ⟨1, 0, 0⟩⟩ := by
    have hsilent := passGraph_silent momentStats hquiet
    have hmeta : ((signalInput {} {} db calmWindow []).passGraph momentStats).passMeta = ⟨1, 0, 0⟩ := by
      have hact := active_quiet hquiet
      have hkeys : (signalInput {} {} db calmWindow []).vectors.keys.length = 1 := by
        rw [calm_vectors]
        rfl
      rw [passGraph, hkeys, hact, edges_inactive momentStats hact]
      rfl
    cases hg : (signalInput {} {} db calmWindow []).passGraph momentStats with
    | mk findings edges ranking blast passMeta =>
      rw [hg] at hsilent hmeta
      obtain ⟨rfl, rfl, rfl, rfl⟩ := hsilent
      rw [← hmeta]
  have hw : (signalInput {} {} db calmWindow []).witness = ⟨[], [], [], []⟩ := by
    have hkeys : calmVectors.keys = ["timescaledb-7c-z9"] := rfl
    rw [signalInput_witness, calm_vectors, witnessFor, hkeys]
    simp [pairs_filter, pairs]
  simp only [signalObservation, signalPass_eq, hg, hw, calm_vectors]
  rfl

variable (digest : CaseKey → String)

lemma learnRow_calm (n : ℕ) : learnRow {} 0 (calmRow n) (List.replicate 180 0) = calmRow (n + 1) := by
  have hmed : median (List.replicate 180 0) = 0 := by decide +kernel
  have hdev : absDev (List.replicate 180 0) 0 = List.replicate 180 0 := by
    rw [absDev, List.map_replicate, sub_self, abs_zero]
  have hper : percentile (List.replicate 180 0) 90 = 0 := by decide +kernel
  rw [learnRow, if_neg (by rw [List.length_replicate]; decide)]
  cases n with
  | zero => simp only [calmRow, hmed, hdev]
  | succ n =>
    have hband : ¬(⟨0, 0, n + 1, 0⟩ : BaselineRow).threshold {} < percentile (List.replicate 180 0) 90 := by
      rw [hper]
      norm_num [BaselineRow.threshold]
    simp only [calmRow, hmed, hdev, hband, and_false, if_false, mul_zero, add_zero]

lemma get?_learned (n : ℕ) (j : String × String) :
    (learned n).baselines.get? j = if j = ("timescaledb", "psi_io") then calmRow n else none := by
  cases n with
  | zero => simp [learned, calmRow, OrderedMap.ofList]
  | succ n => simp [learned, calmRow, OrderedMap.ofList]

lemma learned_next (n : ℕ) : (observe digest {} (learned n) calmObservation).1 = learned (n + 1) := by
  have hb : updateBaselines {} 0 calmVectors (learned n).baselines = (learned (n + 1)).baselines := by
    have hw : stableWorkload "timescaledb-7c-z9" = "timescaledb" := by decide
    have hcalm : calmVectors.entries = [("timescaledb-7c-z9", List.replicate 180 0)] := rfl
    have hperm : (updateBaselines {} 0 calmVectors (learned n).baselines).entries.Perm
        (learned (n + 1)).baselines.entries := by
      apply OrderedMap.perm_iff_get?.mpr
      intro j
      rw [updateBaselines, hcalm, List.foldl_cons, List.foldl_nil, get?_learnBaseline, get?_learned, get?_learned, hw]
      split_ifs
      · exact learnRow_calm n
      · rfl
    have hentries : (learned (n + 1)).baselines.entries = [(("timescaledb", "psi_io"), ⟨0, 0, n + 1, 0⟩)] := rfl
    apply OrderedMap.ext
    rw [hentries] at hperm ⊢
    exact List.perm_singleton.mp hperm
  have he : updateEdges {} calmObservation.present 0 (some ⟨[], [], [], []⟩) [] .empty = .empty := rfl
  have hstep : (observe digest {} (learned n) calmObservation).1 = { learned n with
      baselines := updateBaselines {} 0 calmVectors (learned n).baselines
      edgeMemory := updateEdges {} calmObservation.present 0 (some ⟨[], [], [], []⟩) [] .empty } := rfl
  rw [hstep, hb, he]
  rfl

lemma learned_reached (n : ℕ) : Reached momentStats digest {} {} (learned n) := by
  induction n with
  | zero => exact .empty
  | succ n ih =>
    rw [← learned_next digest n]
    exact ih.pass calmWindow 0 0 [] (calm_observation _)

end Calm

def blamed (v : SignalVerdict) : List String × Option String :=
  (v.rootCauseRanking.map RootCause.pod, v.caseVerdict.map CaseVerdict.caseId)

def loneWindow : Window := .ofList [("factory/cooling-monitor-6d-a1/psi_io", scraped 12 0),
  ("factory/timescaledb-7c-z9/psi_io", scraped 12 1), ("factory/cooling-monitor-6d-a1/io_write", scraped 12 2)]

set_option maxRecDepth 20000 in
lemma lone_edges : ((signalInput {} {} (learned 12) loneWindow []).edges momentStats).map (fun e => (e.src, e.dst)) =
    [("cooling-monitor-6d-a1", "timescaledb-7c-z9")] := by decide +kernel

theorem other_alerts_neutral_iff_lone :
    ((signalInput {} {} (learned 12) loneWindow []).edges momentStats).map (fun e => (e.src, e.dst)) =
        [("cooling-monitor-6d-a1", "timescaledb-7c-z9")] ∧
      ∀ events events', SameAlerts "psi_io" events events' →
        signalVerdict momentStats stressorDigest {} {} (learned 12) loneWindow 0 0 events =
          signalVerdict momentStats stressorDigest {} {} (learned 12) loneWindow 0 0 events' := by
  refine ⟨lone_edges, (other_alerts_neutral_iff momentStats stressorDigest {} {} (learned 12) loneWindow 0 0).mpr ?_⟩
  rw [oneOrigin_iff]
  have hsource : ∀ a ∈ (buildGraph ((signalInput {} {} (learned 12) loneWindow []).edges momentStats)).entries,
      a.1.1 = "cooling-monitor-6d-a1" := by
    intro a ha
    obtain ⟨e, he, rfl⟩ := List.mem_map.mp (OrderedMap.mem_entries_ofList ha)
    have hends := List.mem_map_of_mem (f := fun e : Edge String => (e.src, e.dst)) he
    rw [lone_edges, List.mem_singleton] at hends
    exact (Prod.mk.inj hends).1
  exact fun a ha b hb => (hsource a ha).trans (hsource b hb).symm

set_option maxRecDepth 20000 in
theorem other_alert_steers : ∃ db, Reached momentStats stressorDigest {} {} db ∧
    SameAlerts "psi_io" [cpuAlert "cooling-monitor-6d-a1"] [cpuAlert "log-archiver-5f-c3"] ∧
    (signalVerdict momentStats stressorDigest {} {} db rivalWindow 0 0 [cpuAlert "cooling-monitor-6d-a1"]).map blamed =
      some (["cooling-monitor-6d-a1"], some "cooling-monitor") ∧
    (signalVerdict momentStats stressorDigest {} {} db rivalWindow 0 0 [cpuAlert "log-archiver-5f-c3"]).map blamed =
      some (["log-archiver-5f-c3"], some "log-archiver") := by
  refine ⟨learned 12, learned_reached stressorDigest 12, ?_, by decide +kernel⟩
  have hcpu : ∀ pod e, e.signal = some "psi_io" → e ∉ [cpuAlert pod] := by
    intro pod e hs he
    obtain rfl := List.mem_singleton.mp he
    have hcpu : some "psi_cpu" = some "psi_io" := hs
    exact absurd hcpu (by decide)
  exact fun e _ hs => iff_of_false (hcpu _ e hs) (hcpu _ e hs)

end CausalEngine.Service
