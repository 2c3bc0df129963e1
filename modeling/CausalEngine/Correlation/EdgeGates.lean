import CausalEngine.Correlation.PassEdges
import Mathlib.Data.String.Basic

/-! The gates that every emitted edge has passed. -/

namespace CausalEngine.Correlation

open Foundations

variable {Pod : Type} [LinearOrder Pod]

structure PsiGate (i : PassInput Pod) (g : PassGraph Pod) (e : Edge Pod) : Prop where
  strong : 6 / 10 ≤ e.r.val
  linked : i.witness.networkLinked e.src e.dst ∨ s(e.src, e.dst) ∈ i.witness.sharedRelation
  ordered : ∀ f ∈ g.findings, ∀ f' ∈ g.findings, f.pod = e.src → f'.pod = e.dst →
    f.onsetS ≤ f'.onsetS + 10

structure SourceGate (i : PassInput Pod) (g : PassGraph Pod) (e : Edge Pod) : Prop where
  strong : 5 / 10 ≤ e.r.val
  linked : i.witness.networkLinked e.src e.dst ∨ s(e.src, e.dst) ∈ i.witness.sharedRelation ∨
    s(e.src, e.dst) ∈ i.witness.sameNode
  victim : ∃ f ∈ g.findings, f.pod = e.dst
  stormed : ∃ wv, i.writeVectors.get? e.src = some wv ∧ ∃ o ∈ cusumOnsets wv, 3 ≤ |o.zpeak|
  dominant : i.writeAct e.dst < i.writeAct e.src
  ordered : ∀ t, i.writeOnsetS.get? e.src = some t → ∀ f ∈ g.findings, f.pod = e.dst →
    t ≤ f.onsetS + 10

namespace PassInput

variable {S : Stats} {i : PassInput Pod} {g : PassGraph Pod} {e : Edge Pod}

lemma runPass_eq (h : runPass S i = some g) : g = i.passGraph S := by
  simp only [runPass] at h
  split_ifs at h
  exact (Option.some.inj h).symm

lemma runPass_ok (h : [] ∉ i.writeCvec.values) : runPass S i = some (i.passGraph S) := if_neg h

lemma writeCvec_of_runPass (h : runPass S i = some g) : [] ∉ i.writeCvec.values := by
  intro hmem
  simp [runPass, hmem] at h

lemma mem_findings {f : Finding Pod} : f ∈ (i.passGraph S).findings ↔ f ∈ i.findings.values :=
  List.mem_insertionSort _

lemma psiEdge_gate {a b : Pod} (h : i.psiEdge S a b = some e) : PsiGate i (i.passGraph S) e := by
  obtain ⟨src, dst, r, lag, prof, -, ha⟩ := i.psiEdge_spec S h
  obtain ⟨hr, hc, hl, rfl⟩ := acceptEdge_spec ha
  refine ⟨?_, (i.witness.couples_iff src dst).mp hc, ?_⟩
  · have hk : (6 / 10 : ℚ) = ((600 : ℤ) : ℚ) / 10 ^ 3 := by norm_num
    have hr' : (6 / 10 : ℚ) ≤ r.val := by simpa only [rPeak] using hr
    rw [hk] at hr' ⊢
    exact le_roundTo 600 hr'
  · intro f hf f' hf' hs hd
    have hs' := i.get?_onsetS (mem_findings.mp hf)
    have hd' := i.get?_onsetS (mem_findings.mp hf')
    rw [hs] at hs'
    rw [hd] at hd'
    rw [hs', hd'] at hl
    exact tooLate_eq_false hl

lemma nearest_mem {c : Option ℕ} {ons : List Onset} {o : Onset} (h : nearest c ons = some o) : o ∈ ons := by
  cases c with
  | none => exact List.mem_of_head? h
  | some c => exact List.argmin_mem h

lemma sourceEdge_gate {w v : Pod} (h : i.sourceEdge S w v = some e) : SourceGate i (i.passGraph S) e := by
  obtain ⟨hw, -, hc, hv, hlt, rfl, rfl, -, hr, hl⟩ := i.sourceEdge_spec S h
  refine ⟨hr, (i.witness.couplesSource_iff e.src e.dst).mp hc, ?_, ?_, hlt, ?_⟩
  · obtain ⟨f, hf, hp⟩ := i.mem_active.mp hv
    exact ⟨f, mem_findings.mpr hf, hp⟩
  · obtain ⟨t, ht⟩ := (OrderedMap.mem_keys _ _).mp hw
    rw [writeOnsetS, OrderedMap.get?_filterMapVals] at ht
    obtain ⟨wv, hwv, ht⟩ := Option.bind_eq_some_iff.mp ht
    obtain ⟨o, ho, -⟩ := Option.map_eq_some_iff.mp ht
    obtain ⟨ho, hz⟩ := List.mem_filter.mp (nearest_mem ho)
    exact ⟨wv, hwv, o, ho, of_decide_eq_true hz⟩
  · intro t ht f hf hd
    have hd' := i.get?_onsetS (mem_findings.mp hf)
    rw [hd] at hd'
    rw [ht, hd'] at hl
    exact tooLate_eq_false hl

lemma edge_strong (he : e ∈ i.edges S) : 1 / 2 ≤ e.r.val := by
  rcases (i.mem_edges S).mp he with he | ⟨he, -⟩
  · have hr := (sourceEdge_gate ((i.mem_sourceEdges S).mp he)).strong
    linarith
  · obtain ⟨a, b, -, -, -, hpe⟩ := (i.mem_psiEdges S).mp he
    have hr := (psiEdge_gate hpe).strong
    linarith

end PassInput

open PassInput

theorem emitted_edges_gated (S : Stats) (i : PassInput Pod) (g : PassGraph Pod)
    (h : runPass S i = some g) :
    (g.edges.map Edge.pair).Nodup ∧ ∀ e ∈ g.edges, e.src ≠ e.dst ∧
      (¬ e.isSource → PsiGate i g e) ∧ (e.isSource → SourceGate i g e) := by
  obtain rfl := runPass_eq h
  refine ⟨i.edges_nodup S, ?_⟩
  intro e he
  refine ⟨i.edge_distinct S he, ?_⟩
  rcases (i.mem_edges S).mp he with he | ⟨he, -⟩
  · have hse := (i.mem_sourceEdges S).mp he
    obtain ⟨-, -, -, -, -, -, -, hs, -⟩ := i.sourceEdge_spec S hse
    exact ⟨fun hn => (hn hs).elim, fun _ => sourceEdge_gate hse⟩
  · obtain ⟨a, b, -, -, -, hpe⟩ := (i.mem_psiEdges S).mp he
    have hn := i.psiEdge_not_source S hpe
    exact ⟨fun _ => psiEdge_gate hpe, fun hs => (hn hs).elim⟩

def stepVec (quiet storm : ℕ) : Vec := List.replicate quiet 0 ++ List.replicate storm 1

def stormInput : PassInput String where
  vectors := .ofList [("loader", stepVec 24 0), ("victim", stepVec 12 12)]
  witness := ⟨[], [], [s("loader", "victim")], []⟩
  sloBreach := []
  caps := .empty
  window := none
  writeVectors := .ofList [("loader", stepVec 12 12), ("victim", stepVec 24 0)]
  baselines := none
  recent := none

theorem emitted_edges_gated_storm : ∃ g e, runPass momentStats stormInput = some g ∧ e ∈ g.edges ∧
    e.src = "loader" ∧ e.dst = "victim" ∧ SourceGate stormInput g e := by
  have h : runPass momentStats stormInput = some (stormInput.passGraph momentStats) :=
    runPass_ok (by decide +kernel)
  obtain ⟨e, he, hs, hd, hw⟩ : ∃ e ∈ (stormInput.passGraph momentStats).edges,
      e.src = "loader" ∧ e.dst = "victim" ∧ e.isSource := by decide +kernel
  exact ⟨_, e, h, he, hs, hd, ((emitted_edges_gated momentStats stormInput _ h).2 e he).2.2 hw⟩

end CausalEngine.Correlation
