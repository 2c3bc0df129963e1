import CausalEngine.Memory.CaseLibrary
import CausalEngine.Memory.SteadyState

/-! The case beside the merged verdict. It is the one that the owning signal filed in this pass, from its own
ranking; the union may rank another pod first. -/

namespace CausalEngine.Memory

open Foundations Correlation

section Stored

variable {digest : CaseKey → String} {cfg : MemoryConfig}

lemma stressors_of_caseSim {a b : CaseKey} {p q : String} (ha : a.stressors = [p]) (hb : b.stressors = [q])
    (h : 4 / 5 < caseSim a b) : p = q := by
  by_contra hne
  unfold caseSim at h
  split_ifs at h
  · norm_num at h
  · have hv := jaccard_le_one a.victims.toFinset b.victims.toFinset
    have hm := jaccard_le_one a.motif.toFinset b.motif.toFinset
    have hs : jaccard a.stressors.toFinset b.stressors.toFinset = 0 := by
      rw [ha, hb]
      exact jaccard_singleton hne
    linarith

lemma Recorded.mono {xs ys : List Observation} {db : Db} (hsub : xs ⊆ ys) (h : Recorded digest xs cfg db) :
    Recorded digest ys cfg db := by
  refine ⟨h.close, ?_⟩
  intro id k hk
  obtain ⟨hdig, o, ho, hinc⟩ := h.named id k hk
  exact ⟨hdig, o, hsub ho, hinc⟩

lemma stored_stressor (hm : 4 / 5 < cfg.tauMerge) (h₁ : cfg.tauMerge ≤ 1) {xs : List Observation} {o : Observation}
    (hd : DigestInjective digest cfg (xs ++ [o])) {inc : Incident} (hinc : incident cfg o.graph = some inc) :
    let db := Runs.final (observe digest cfg) .empty xs
    ∃ row, (observe digest cfg db o).1.cases.get? (fileIncident digest cfg o.ts inc db.cases).2.caseId = some row ∧
      row.key.stressors = [inc.root] := by
  intro db
  have hpos : 0 < cfg.tauMerge := lt_trans (by norm_num) hm
  have hrec : Recorded digest (xs ++ [o]) cfg db := by
    apply Recorded.mono (List.subset_append_left xs [o])
    apply recorded_run digest hpos h₁
    exact fun x hx y hy => hd x (List.mem_append_left _ hx) y (List.mem_append_left _ hy)
  obtain ⟨⟨k, hk, hsim⟩, hnamed⟩ := recorded_file digest hpos h₁ hd (by simp) hinc hrec
  obtain ⟨-, o', -, inc', hinc', rfl⟩ := hnamed _ k hk
  obtain ⟨row, hrow, hkey⟩ := Option.map_eq_some_iff.mp hk
  obtain ⟨-, -, -, hs, -⟩ := incident_spec hinc
  obtain ⟨-, -, -, hs', -⟩ := incident_spec hinc'
  refine ⟨row, ?_, ?_⟩
  · rw [cases_observe, hinc, Option.elim_some]
    exact hrow
  · rw [hkey, hs', stressors_of_caseSim hs hs' (hm.trans_le hsim)]

end Stored

section Merged

variable (digest : CaseKey → String) (S : Stats)

def SignalPass.StoredUnder (s : SignalPass) (g : PassGraph String) (id root : String) : Prop :=
  ∃ row, (observe digest s.cfg (s.memory digest) (s.observation g)).1.cases.get? id = some row ∧
    row.key.stressors = [root]

structure SignalPass.Files (s : SignalPass) (g : PassGraph String) (top : RootCause String) (id : String) : Prop where
  pass : runPass S s.input = some g
  first : g.rootCauseRanking.head? = some top
  aggressor : ∃ e ∈ g.edges, e.isSource ∧ stableWorkload e.src = stableWorkload top.pod
  stored : s.StoredUnder digest g id (stableWorkload top.pod)

variable {digest S}

lemma SignalPass.StoredUnder.unique {s : SignalPass} {g : PassGraph String} {id p q : String}
    (hp : s.StoredUnder digest g id p) (hq : s.StoredUnder digest g id q) : p = q := by
  obtain ⟨row, hrow, hp⟩ := hp
  obtain ⟨row', hrow', hq⟩ := hq
  rw [hrow] at hrow'
  rw [Option.some.inj hrow', hq] at hp
  exact (List.singleton_inj.mp hp).symm

lemma SignalPass.files_of_verdict {s : SignalPass} (hm : 4 / 5 < s.cfg.tauMerge) (h₁ : s.cfg.tauMerge ≤ 1)
    (hd : ∀ g, runPass S s.input = some g → DigestInjective digest s.cfg (s.history ++ [s.observation g]))
    {m : MemoryGraph} (hobs : (s.observed digest S).map Prod.snd = some m) {v : CaseVerdict}
    (hv : m.caseVerdict = some v) : ∃ g top, s.Files digest S g top v.caseId := by
  obtain ⟨_, hr, rfl⟩ := Option.map_eq_some_iff.mp hobs
  obtain ⟨g, hg, rfl⟩ := Option.map_eq_some_iff.mp hr
  rw [caseVerdict_observe] at hv
  obtain ⟨inc, hinc, rfl⟩ := Option.map_eq_some_iff.mp hv
  obtain ⟨top, htop, hroot, -, -, e, he, hsource, hsrc⟩ := incident_spec hinc
  have hstored := stored_stressor hm h₁ (hd g hg) hinc
  rw [hroot] at hsrc hstored
  exact ⟨g, top, hg, htop, ⟨e, he, hsource, hsrc⟩, hstored⟩

variable (digest S) in
theorem shown_case_of_owner (family : OrderedMap String SignalPass) (primary : Option String)
    (hm : ∀ s ∈ family.values, 4 / 5 < s.cfg.tauMerge ∧ s.cfg.tauMerge ≤ 1)
    (hd : ∀ s ∈ family.values, ∀ g, runPass S s.input = some g →
      DigestInjective digest s.cfg (s.history ++ [s.observation g])) :
    let merged := mergeGraphs (family.filterMapVals fun _ s => (s.observed digest S).map Prod.snd) primary
    ∀ v, merged.mergedMeta.caseVerdict = some v → ∃ root e s g top,
      merged.rootCauseRanking.head? = some root ∧ merged.edges.find? (fun e => e.item.edge.src = root.pod) = some e ∧
        family.get? e.signal = some s ∧ s.Files digest S g top v.caseId ∧
        (s.StoredUnder digest g v.caseId (stableWorkload root.pod) ↔
          stableWorkload top.pod = stableWorkload root.pod) := by
  intro merged v hv
  obtain ⟨sig, hsig, hbind⟩ := Option.bind_eq_some_iff.mp hv
  obtain ⟨m, hm', hcase⟩ := Option.bind_eq_some_iff.mp hbind
  obtain ⟨root, hroot, hedge⟩ := Option.bind_eq_some_iff.mp hsig
  obtain ⟨e, he, rfl⟩ := Option.map_eq_some_iff.mp hedge
  rw [OrderedMap.get?_filterMapVals] at hm'
  obtain ⟨s, hs, hobs⟩ := Option.bind_eq_some_iff.mp hm'
  have hmem := OrderedMap.get?_mem_values hs
  obtain ⟨g, top, hfiles⟩ := SignalPass.files_of_verdict (hm s hmem).1 (hm s hmem).2 (hd s hmem) hobs hcase
  refine ⟨root, e, s, g, top, hroot, he, hs, hfiles, ?_⟩
  exact ⟨hfiles.stored.unique, fun heq => heq ▸ hfiles.stored⟩

end Merged

def diskStorm : SignalPass where
  cfg := {}
  history := []
  input :=
    { vectors := .ofList [("cooling-monitor-6d-a1", stepVec 24 0), ("log-archiver-5f-c3", stepVec 24 0),
        ("timescaledb-7c-z9", stepVec 12 12)]
      witness := ⟨[], [], [s("cooling-monitor-6d-a1", "log-archiver-5f-c3"),
        s("cooling-monitor-6d-a1", "timescaledb-7c-z9"), s("log-archiver-5f-c3", "timescaledb-7c-z9")], []⟩
      sloBreach := []
      caps := .empty
      window := none
      writeVectors := .ofList [("cooling-monitor-6d-a1", stepVec 14 10), ("log-archiver-5f-c3", stepVec 12 12)]
      baselines := none
      recent := none }
  ts := 30
  now := 30

def cpuStorm : SignalPass where
  cfg := { signal := "psi_cpu", prior := 0, floorFrac := 0 }
  history := []
  input :=
    { vectors := .ofList [("cooling-monitor-6d-a1", stepVec 24 0), ("dcim-bridge-6d-y2", stepVec 12 12)]
      witness := ⟨[], [], [], [s("cooling-monitor-6d-a1", "dcim-bridge-6d-y2")]⟩
      sloBreach := []
      caps := .empty
      window := none
      writeVectors := .ofList [("cooling-monitor-6d-a1", stepVec 12 12)]
      baselines := none
      recent := none }
  ts := 30
  now := 30

def storms : OrderedMap String SignalPass := .ofList [("psi_io", diskStorm), ("psi_cpu", cpuStorm)]

def mergedStorms : MergedGraph :=
  mergeGraphs (storms.filterMapVals fun _ s => (s.observed stressorDigest momentStats).map Prod.snd) (some "psi_io")

lemma shown_storms : mergedStorms.rootCauseRanking.head?.map RootCause.pod = some "cooling-monitor-6d-a1" ∧
    mergedStorms.mergedMeta.caseVerdict.map CaseVerdict.caseId = some "log-archiver" ∧
    mergedStorms.mergedMeta.signal = some "psi_io" := by
  decide +kernel

theorem shown_case_of_owner_storms : ∃ root e s g top, mergedStorms.rootCauseRanking.head? = some root ∧
    mergedStorms.edges.find? (fun e => e.item.edge.src = root.pod) = some e ∧ storms.get? e.signal = some s ∧
      s.Files stressorDigest momentStats g top "log-archiver" ∧
      (s.StoredUnder stressorDigest g "log-archiver" (stableWorkload root.pod) ↔
        stableWorkload top.pod = stableWorkload root.pod) := by
  obtain ⟨v, hv, hid⟩ := Option.map_eq_some_iff.mp shown_storms.2.1
  rw [← hid]
  have hvals : storms.values = [diskStorm, cpuStorm] := rfl
  refine shown_case_of_owner stressorDigest momentStats storms (some "psi_io") ?_ ?_ v hv
  · rw [hvals]
    have hdisk : diskStorm.cfg.tauMerge = 85 / 100 := rfl
    have hcpu : cpuStorm.cfg.tauMerge = 85 / 100 := rfl
    norm_num [hdisk, hcpu]
  · intro s hs g _
    have hnil : s.history = [] := by
      rw [hvals] at hs
      rcases List.mem_pair.mp hs with rfl | rfl <;> rfl
    rw [hnil]
    intro o ho o' ho' inc inc' hinc hinc' _
    rw [List.mem_singleton.mp ho] at hinc
    rw [List.mem_singleton.mp ho', hinc] at hinc'
    rw [Option.some.inj hinc']

theorem shown_case_of_another : mergedStorms.rootCauseRanking.head?.map RootCause.pod = some "cooling-monitor-6d-a1" ∧
    mergedStorms.mergedMeta.caseVerdict.map CaseVerdict.caseId = some "log-archiver" ∧
    mergedStorms.mergedMeta.signal = some "psi_io" ∧
    ((diskStorm.observed stressorDigest momentStats).bind fun r => r.1.cases.get? "log-archiver").map
      (fun row => row.key.stressors) = some ["log-archiver"] :=
  ⟨shown_storms.1, shown_storms.2.1, shown_storms.2.2, by decide +kernel⟩

end CausalEngine.Memory
