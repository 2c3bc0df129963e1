import CausalEngine.Correlation.Silence
import CausalEngine.Memory.CaseSimilarity
import CausalEngine.Memory.EdgeInvariant
import CausalEngine.Memory.Merge

/-! Steady state, from the passes over every signal to the merged graph. The backbone that memory holds
is rendered, and blames nobody. -/

namespace CausalEngine.Memory

open Foundations Correlation PassInput

def Unconfirmed (m m' : EdgeTable) : Prop :=
  ∀ j row', m'.get? j = some row' → row'.hits = (m.get? j).elim 0 EdgeRow.hits ∧
    ∀ row, m.get? j = some row → row'.r = row.r ∧ row'.lagS = row.lagS ∧ row'.lastSeenTs = row.lastSeenTs

lemma updateEdges_unconfirmed (cfg : MemoryConfig) (present : List String) (ts : ℚ)
    (witness : Option (Witness String)) (m : EdgeTable) :
    Unconfirmed m (updateEdges cfg present ts witness [] m) := by
  intro j
  apply updateEdges_row
  · intro row hrow
    simp [hrow]
  · intro _
    cases hm : m.get? j with
    | none => simp [seedRow, structuralRow]
    | some row => simp [seedRow]
  · simp
  · exact fun row h => h

lemma incident_silent (cfg : MemoryConfig) {g : PassGraph String} (h : g.Silent) : incident cfg g = none := by
  simp [incident, h.ranking]

section Merged

variable {perSignal : OrderedMap String MemoryGraph} (h : ∀ g ∈ perSignal.values, g.findings = [])
include h

lemma unionFindings_silent : unionFindings perSignal = [] := by
  simp only [unionFindings, List.flatMap_eq_nil_iff, List.map_eq_nil_iff]
  exact fun e he => h e.2 (List.mem_map_of_mem he)

lemma mergedRanking_silent : mergedRanking perSignal = [] := by
  simp [mergedRanking, unionFindings_silent h]

end Merged

variable (digest : CaseKey → String) (S : Stats)

structure SignalPass where
  cfg : MemoryConfig
  history : List Observation
  input : PassInput String
  ts : ℚ
  now : ℚ

namespace SignalPass

variable (s : SignalPass)

def memory : Db := Runs.final (observe digest s.cfg) .empty s.history

def observation (g : PassGraph String) : Observation :=
  ⟨g, s.input.vectors, some s.input.witness, s.ts, s.now⟩

def observed : Option (Db × MemoryGraph) :=
  (runPass S s.input).map fun g => observe digest s.cfg (s.memory digest) (s.observation g)

structure StaysSilent : Prop where
  pass : ∃ g, runPass S s.input = some g ∧ g.Silent
  observed : ∃ db g, s.observed digest S = some (db, g) ∧
    Unconfirmed (s.memory digest).edgeMemory db.edgeMemory ∧ db.cases = (s.memory digest).cases ∧
    db.caseObservations = (s.memory digest).caseObservations

variable {s}

lemma observed_quiet (h : s.input.quiet) (hw : [] ∉ s.input.writeVectors.values) :
    s.observed digest S =
      some (observe digest s.cfg (s.memory digest) (s.observation (s.input.passGraph S))) := by
  rw [observed, runPass_quiet S h hw, Option.map_some]

lemma staysSilent (h : s.input.quiet) (hw : [] ∉ s.input.writeVectors.values) : s.StaysSilent digest S := by
  have hg := passGraph_silent S h
  have hinc := incident_silent s.cfg hg
  refine ⟨⟨_, runPass_quiet S h hw, hg⟩,
    (observe digest s.cfg (s.memory digest) (s.observation (s.input.passGraph S))).1,
    (observe digest s.cfg (s.memory digest) (s.observation (s.input.passGraph S))).2,
    observed_quiet digest S h hw, ?_, ?_, ?_⟩
  · rw [edgeMemory_observe, observation, hg.edges]
    exact updateEdges_unconfirmed _ _ _ _ _
  · rw [cases_observe, observation, hinc, Option.elim_none]
  · rw [caseObservations_observe, observation, hinc, Option.map_none, Option.toList_none, List.append_nil]

end SignalPass

theorem steady_state_silent (family : OrderedMap String SignalPass) (primary : Option String)
    (h : ∀ s ∈ family.values, s.input.quiet) (hw : ∀ s ∈ family.values, [] ∉ s.input.writeVectors.values) :
    let merged := mergeGraphs (family.filterMapVals fun _ s => (s.observed digest S).map Prod.snd) primary
    (∀ s ∈ family.values, s.StaysSilent digest S) ∧
      merged.findings = [] ∧ merged.rootCauseRanking = [] ∧ merged.blastRadius = [] := by
  intro merged
  have hsilent : ∀ g ∈ (family.filterMapVals fun _ s => (s.observed digest S).map Prod.snd).values,
      g.findings = [] := by
    intro g hg
    obtain ⟨⟨sig, g⟩, he, rfl⟩ := List.mem_map.mp hg
    rw [← OrderedMap.get?_eq_some, OrderedMap.get?_filterMapVals] at he
    obtain ⟨s, hs, hobs⟩ := Option.bind_eq_some_iff.mp he
    have hmem := OrderedMap.get?_mem_values hs
    rw [SignalPass.observed_quiet digest S (h s hmem) (hw s hmem), Option.map_some] at hobs
    obtain rfl := Option.some.inj hobs
    exact (passGraph_silent S (h s hmem)).findings
  refine ⟨fun s hs => SignalPass.staysSilent digest S (h s hs) (hw s hs), ?_, ?_, ?_⟩
  · exact unionFindings_silent hsilent
  · exact mergedRanking_silent hsilent
  · simp [merged, mergeGraphs, mergedRanking_silent hsilent, blastOfTop]

def idleDisk : SignalPass where
  cfg := {}
  history := [diskPass, diskPass]
  input :=
    { vectors := .ofList [("cooling-monitor-5f-q8", stepVec 24 0), ("timescaledb-7c-z9", stepVec 24 0)]
      witness := ⟨[], [], [s("cooling-monitor-5f-q8", "timescaledb-7c-z9")], []⟩
      sloBreach := ["timescaledb-7c-z9"]
      caps := .empty
      window := some 36
      writeVectors := .ofList [("cooling-monitor-5f-q8", stepVec 12 12)]
      baselines := some (.ofList [("cooling-monitor-5f-q8", some 1), ("timescaledb-7c-z9", none)])
      recent := some 24 }
  ts := 30
  now := 30

theorem steady_state_silent_disk :
    let merged := mergeGraphs ((OrderedMap.ofList [("psi_io", idleDisk)]).filterMapVals fun _ s =>
      (s.observed (fun _ => "c0") momentStats).map Prod.snd) (some "psi_io")
    merged.edges ≠ [] ∧ merged.findings = [] ∧ merged.rootCauseRanking = [] ∧ merged.blastRadius = [] := by
  intro merged
  have hquiet : ∀ s ∈ (OrderedMap.ofList [("psi_io", idleDisk)]).values, s.input.quiet := by
    have hall : ∀ e ∈ idleDisk.input.vectors.entries, ∀ o ∈ cusumOnsets e.2, |o.zpeak| < 3 := by
      decide +kernel
    intro s hs
    obtain rfl := List.mem_singleton.mp hs
    exact fun e he => Or.inl (hall e he)
  have hw : ∀ s ∈ (OrderedMap.ofList [("psi_io", idleDisk)]).values, [] ∉ s.input.writeVectors.values := by
    intro s hs
    obtain rfl := List.mem_singleton.mp hs
    decide
  exact ⟨by decide +kernel, (steady_state_silent (fun _ => "c0") momentStats _ (some "psi_io") hquiet hw).2⟩

end CausalEngine.Memory
