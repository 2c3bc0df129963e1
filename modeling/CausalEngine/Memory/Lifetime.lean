import CausalEngine.Memory.ShownCase

/-! What a long life makes of the memory: its tables do not outgrow the factory, however often pods are restarted, and
an incident that has been filed once is known from then on. -/

namespace CausalEngine.Memory

open Foundations Correlation

variable (digest : CaseKey → String) {cfg : MemoryConfig} {db : Db} {o : Observation}

section Footprint

def Observation.workloads (o : Observation) : List String :=
  o.present ++ o.graph.edges.flatMap fun e => [stableWorkload e.src, stableWorkload e.dst]

lemma edgeKey_observe {k : EdgeKey} (h : k ∈ (observe digest cfg db o).1.edgeMemory.keys) :
    k ∈ db.edgeMemory.keys ∨ k.signal = cfg.signal ∧ k.src ∈ o.workloads ∧ k.dst ∈ o.workloads := by
  obtain ⟨row, hrow⟩ := (OrderedMap.mem_keys _ k).mp h
  rw [edgeMemory_observe] at hrow
  revert hrow row
  apply updateEdges_row
  · exact fun row hrow => Or.inl ((OrderedMap.mem_keys _ k).mpr ⟨row, hrow⟩)
  · intro hseeds
    obtain ⟨hsig, hsrc, hdst, -⟩ := seeds_present cfg o.present hseeds
    exact Or.inr ⟨hsig, List.mem_append_left _ hsrc, List.mem_append_left _ hdst⟩
  · rintro e he rfl - -
    refine Or.inr ⟨rfl, List.mem_append_right _ ?_, List.mem_append_right _ ?_⟩
    · exact List.mem_flatMap.mpr ⟨e, he, by simp [edgeKeyOf]⟩
    · exact List.mem_flatMap.mpr ⟨e, he, by simp [edgeKeyOf]⟩
  · exact fun _ hk => hk

lemma baselineKey_observe {k : String × String} (h : k ∈ (observe digest cfg db o).1.baselines.keys) :
    k ∈ db.baselines.keys ∨ k.2 = cfg.signal ∧ k.1 ∈ o.workloads := by
  rw [baselines_observe, updateBaselines] at h
  have hall : ∀ (l : List (String × Vec)) (m : BaselineTable), (∀ e ∈ l, stableWorkload e.1 ∈ o.workloads) →
      k ∈ (l.foldl (fun m e => learnBaseline cfg o.ts m e.1 e.2) m).keys →
      k ∈ m.keys ∨ k.2 = cfg.signal ∧ k.1 ∈ o.workloads := by
    intro l
    induction l with
    | nil => exact fun m _ hk => Or.inl hk
    | cons e l ih =>
      intro m hl hk
      refine (ih _ (fun f hf => hl f (List.mem_cons_of_mem _ hf)) hk).elim (fun hk => ?_) Or.inr
      obtain ⟨row, hrow⟩ := (OrderedMap.mem_keys _ k).mp hk
      rw [get?_learnBaseline] at hrow
      split_ifs at hrow with hkey
      · rw [hkey]
        exact Or.inr ⟨rfl, hl e List.mem_cons_self⟩
      · exact Or.inl ((OrderedMap.mem_keys _ k).mpr ⟨row, hrow⟩)
  apply hall _ _ _ h
  intro e he
  exact List.mem_append_left _ (List.mem_map_of_mem (List.mem_map_of_mem (f := Prod.fst) he))

structure Within (cfg : MemoryConfig) (ws : List String) (db : Db) : Prop where
  edges : ∀ k ∈ db.edgeMemory.keys, k.signal = cfg.signal ∧ k.src ∈ ws ∧ k.dst ∈ ws
  baselines : ∀ k ∈ db.baselines.keys, k.2 = cfg.signal ∧ k.1 ∈ ws

lemma within_run (xs : List Observation) :
    Within cfg (xs.flatMap Observation.workloads) (Runs.final (observe digest cfg) .empty xs) := by
  apply Runs.final_invariant (P := Within cfg (xs.flatMap Observation.workloads))
  · exact ⟨fun k hk => absurd hk List.not_mem_nil, fun k hk => absurd hk List.not_mem_nil⟩
  · intro db hdb o ho
    have hmem : ∀ w ∈ o.workloads, w ∈ xs.flatMap Observation.workloads := fun w hw =>
      List.mem_flatMap.mpr ⟨o, ho, hw⟩
    constructor
    · intro k hk
      rcases edgeKey_observe digest hk with hk | ⟨hsig, hsrc, hdst⟩
      · exact hdb.edges k hk
      · exact ⟨hsig, hmem _ hsrc, hmem _ hdst⟩
    · intro k hk
      rcases baselineKey_observe digest hk with hk | ⟨hsig, hw⟩
      · exact hdb.baselines k hk
      · exact ⟨hsig, hmem _ hw⟩

lemma Within.size {ws : List String} (h : Within cfg ws db) :
    db.edgeMemory.entries.length ≤ ws.dedup.length ^ 2 ∧ db.baselines.entries.length ≤ ws.dedup.length := by
  constructor
  · have hsub : db.edgeMemory.keys ⊆ (ws.dedup ×ˢ ws.dedup).map fun p => ⟨p.1, p.2, cfg.signal⟩ := by
      rintro ⟨src, dst, signal⟩ hk
      obtain ⟨rfl, hsrc, hdst⟩ := h.edges _ hk
      exact List.mem_map.mpr ⟨(src, dst), List.mem_product.mpr ⟨List.mem_dedup.mpr hsrc, List.mem_dedup.mpr hdst⟩, rfl⟩
    have hlen := (List.subperm_of_subset db.edgeMemory.keys_nodup hsub).length_le
    rwa [List.length_map, List.length_product, ← sq, OrderedMap.keys, List.length_map] at hlen
  · have hsub : db.baselines.keys ⊆ ws.dedup.map fun w => (w, cfg.signal) := by
      rintro ⟨w, signal⟩ hk
      obtain ⟨rfl, hw⟩ := h.baselines _ hk
      exact List.mem_map.mpr ⟨w, List.mem_dedup.mpr hw, rfl⟩
    have hlen := (List.subperm_of_subset db.baselines.keys_nodup hsub).length_le
    rwa [List.length_map, OrderedMap.keys, List.length_map] at hlen

end Footprint

/-- The tables of beliefs and baselines are as small as the number of workloads ever seen allows, however many passes
there have been and however many pods. -/
theorem footprint_bounded (digest : CaseKey → String) (cfg : MemoryConfig) (xs : List Observation) :
    (Runs.final (observe digest cfg) .empty xs).edgeMemory.entries.length ≤
      (xs.flatMap Observation.workloads).dedup.length ^ 2 ∧
    (Runs.final (observe digest cfg) .empty xs).baselines.entries.length ≤
      (xs.flatMap Observation.workloads).dedup.length :=
  (within_run digest xs).size

section Recognition

variable {inc inc' : Incident} {t : CaseTable} {xs : List Observation}

lemma far_of_novel {ts : ℚ} (hf : 0 < cfg.tauFamily) (h : (fileIncident digest cfg ts inc t).2.caseRegister = .novel) :
    ∀ e ∈ t.entries, caseSim inc.key e.2.key < cfg.tauFamily := by
  rcases hn : nearestCase t inc.key with ⟨best, sim⟩
  obtain ⟨hmax, hnone, hsome⟩ := nearest_spec inc.key t.entries hn
  simp only [fileIncident, hn] at h
  cases best with
  | none => exact fun e he => ((hmax e he).trans (hnone rfl).le).trans_lt hf
  | some near =>
    dsimp only at h
    split_ifs at h with hmerge hfamily
    exact fun e he => (hmax e he).trans_lt (not_le.mp hfamily)

lemma close_of_seen (hm : 0 < cfg.tauMerge) (h₁ : cfg.tauMerge ≤ 1) (hd : DigestInjective digest cfg xs) (ho : o ∈ xs)
    (hinc : incident cfg o.graph = some inc) : ∃ id k,
      prototype (Runs.final (observe digest cfg) .empty xs).cases id = some k ∧ cfg.tauMerge ≤ caseSim inc.key k := by
  obtain ⟨ys, zs, rfl⟩ := List.append_of_mem ho
  have hseen : ys ++ [o] ⊆ ys ++ o :: zs := by
    intro x hx
    rcases List.mem_append.mp hx with hx | hx
    · exact List.mem_append_left _ hx
    · exact List.mem_append_right _ (List.mem_singleton.mp hx ▸ List.mem_cons_self)
  have hd' : DigestInjective digest cfg (ys ++ [o]) := fun a ha b hb => hd a (hseen ha) b (hseen hb)
  have hd'' : DigestInjective digest cfg ys := fun a ha b hb =>
    hd' a (List.mem_append_left _ ha) b (List.mem_append_left _ hb)
  have hrecorded := (recorded_run digest hm h₁ ys hd'').mono (List.subset_append_left ys [o])
  obtain ⟨⟨k, hk, hsim⟩, -⟩ := recorded_file digest hm h₁ hd' (List.mem_append_right _ List.mem_cons_self) hinc
    hrecorded
  refine ⟨(fileIncident digest cfg o.ts inc (Runs.final (observe digest cfg) .empty ys).cases).2.caseId, k, ?_, hsim⟩
  rw [Runs.final_append]
  refine prototype_run digest hm ?_ zs
  rw [cases_observe, hinc]
  exact hk

/-- Nothing that resembles an incident of the past is called novel, and its exact repetition is called a recurrence,
whether it had opened a case or was folded into one. -/
theorem seen_incident_known (digest : CaseKey → String) (cfg : MemoryConfig) (hf : 0 < cfg.tauFamily)
    (hm : cfg.tauFamily ≤ cfg.tauMerge) (h₁ : cfg.tauMerge ≤ 1) (xs : List Observation)
    (hd : DigestInjective digest cfg xs) (o o' : Observation) (inc inc' : Incident) (ho : o ∈ xs)
    (hinc : incident cfg o.graph = some inc) (hinc' : incident cfg o'.graph = some inc') :
    ∃ v, (observe digest cfg (Runs.final (observe digest cfg) .empty xs) o').2.caseVerdict = some v ∧
      (inc'.key.SameShape inc.key → v.caseRegister = .recurrence) ∧
      (1 + cfg.tauFamily - cfg.tauMerge ≤ caseSim inc'.key inc.key → v.caseRegister ≠ .novel) := by
  have hpos := hf.trans_le hm
  obtain ⟨id, k, hk, hsim⟩ := close_of_seen digest hpos h₁ hd ho hinc
  obtain ⟨row, hrow, rfl⟩ := mem_of_prototype hk
  have hverdict : (observe digest cfg (Runs.final (observe digest cfg) .empty xs) o').2.caseVerdict =
      some (fileIncident digest cfg o'.ts inc' (Runs.final (observe digest cfg) .empty xs).cases).2 := by
    rw [caseVerdict_observe, hinc', Option.map_some]
  refine ⟨_, hverdict, ?_, ?_⟩
  · intro hshape
    rcases fileIncident_cases digest o'.ts inc' (Runs.final (observe digest cfg) .empty xs).cases hpos with
      ⟨j, near, -, -, -, he⟩ | ⟨hfar, -⟩
    · rw [he]
    · have hlt := hfar _ hrow
      rw [caseSim_congr _ hshape] at hlt
      exact absurd hsim (not_le.mpr hlt)
  · intro hlike hnovel
    have hlt := far_of_novel digest hf hnovel _ hrow
    have htriangle := caseSim_triangle (a := inc'.key) (b := inc.key) (c := row.key) (by linarith) (by linarith)
    linarith

theorem seen_incident_known_spread :
    let db := Runs.final (observe victimDigest {}) .empty (spreadRun.take 2)
    (∃ v, (observe victimDigest {} db (spreadPass ["timescaledb-7c-z9", "dcim-bridge-6d-k2"] 60)).2.caseVerdict =
      some v ∧ v.caseRegister = .recurrence) ∧
    ∃ v, (observe victimDigest {} db (spreadPass ["timescaledb-7c-z9"] 60)).2.caseVerdict = some v ∧
      v.caseRegister ≠ .novel := by
  intro db
  have hd : DigestInjective victimDigest {} (spreadRun.take 2) := digestInjective_of_keys (by decide +kernel)
  have hfolded : spreadPass ["timescaledb-7c-z9", "dcim-bridge-6d-k2"] 40 ∈ spreadRun.take 2 := by simp [spreadRun]
  obtain ⟨inc, hinc⟩ := Option.isSome_iff_exists.mp (by decide +kernel :
    (incident {} (spreadPass ["timescaledb-7c-z9", "dcim-bridge-6d-k2"] 40).graph).isSome = true)
  obtain ⟨inc', hinc'⟩ := Option.isSome_iff_exists.mp (by decide +kernel :
    (incident {} (spreadPass ["timescaledb-7c-z9"] 60).graph).isSome = true)
  have hsim : ∀ i' ∈ incident {} (spreadPass ["timescaledb-7c-z9"] 60).graph, ∀ i ∈ incident {}
      (spreadPass ["timescaledb-7c-z9", "dcim-bridge-6d-k2"] 40).graph,
        1 + 60 / 100 - 85 / 100 ≤ caseSim i'.key i.key := by
    decide +kernel
  obtain ⟨v, hv, hrecurs, -⟩ := seen_incident_known victimDigest {} (by norm_num) (by norm_num) (by norm_num) _ hd _
    (spreadPass ["timescaledb-7c-z9", "dcim-bridge-6d-k2"] 60) inc inc hfolded hinc hinc
  obtain ⟨v', hv', -, hfamiliar⟩ := seen_incident_known victimDigest {} (by norm_num) (by norm_num) (by norm_num) _ hd _
    (spreadPass ["timescaledb-7c-z9"] 60) inc inc' hfolded hinc hinc'
  exact ⟨⟨v, hv, hrecurs ⟨rfl, rfl, rfl, rfl, rfl⟩⟩, v', hv', hfamiliar (hsim inc' hinc' inc hinc)⟩

end Recognition

end CausalEngine.Memory
