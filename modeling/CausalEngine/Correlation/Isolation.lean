import CausalEngine.Correlation.ImpactFacts
import CausalEngine.Correlation.Renaming

/-! A pod that no relation of the witness links to another pod. It can still supply the event centre,
and by that alone it acts on the other pods. -/

namespace CausalEngine.Correlation

open Foundations DiGraph

namespace PassInput

variable {Pod : Type} [LinearOrder Pod] (S : Stats) (i : PassInput Pod) (q : Pod)

def without : PassInput Pod :=
  { i with
    vectors := i.vectors.erase q
    writeVectors := i.writeVectors.erase q
    baselines := i.baselines.map fun b => b.erase q }

def isolated : Prop := ∀ p, p ≠ q → ¬ i.witness.links q p

/-- The global fallback: `q` has the strongest onset of all, and no two anomalous pods are coupled. -/
def suppliesCentre : Prop := i.coupledPods = [] ∧ i.onsetPods.argmax i.strength = some q

instance : Decidable (i.suppliesCentre q) := inferInstanceAs (Decidable (_ ∧ _))

section Coupling

variable {i q}

lemma isolated.couples_left (h : i.isolated q) {p : Pod} (hp : p ≠ q) : i.witness.couples q p = false := by
  by_contra hc
  exact h p hp (Witness.links_of_couples _ (by simpa using hc))

lemma isolated.couples_right (h : i.isolated q) {p : Pod} (hp : p ≠ q) : i.witness.couples p q = false := by
  rw [i.witness.couples_symm]
  exact h.couples_left hp

lemma isolated.source_left (h : i.isolated q) {p : Pod} (hp : p ≠ q) :
    i.witness.couplesSource q p = false := by
  by_contra hc
  exact h p hp (Witness.links_of_couplesSource _ (by simpa using hc))

lemma isolated.source_right (h : i.isolated q) {p : Pod} (hp : p ≠ q) :
    i.witness.couplesSource p q = false := by
  rw [i.witness.couplesSource_symm]
  exact h.source_left hp

end Coupling

section Onsets

variable {q}

lemma rawOnsetsOf_without {p : Pod} (hp : p ≠ q) : (i.without q).rawOnsetsOf p = i.rawOnsetsOf p := by
  funext x
  have hd : (i.without q).deviates p x = i.deviates p x := by
    simp only [deviates, without]
    cases i.baselines with
    | none => rfl
    | some b =>
      simp only [Option.map_some, OrderedMap.get?_erase, if_neg hp]
      rfl
  simp only [rawOnsetsOf, hd]

lemma rawOnsets_without : (i.without q).rawOnsets = i.rawOnsets.erase q :=
  i.vectors.filterMapVals_erase q fun _ hp => i.rawOnsetsOf_without hp

lemma pods_without : (i.without q).pods = i.pods.filter (· ≠ q) := by
  rw [pods, without, OrderedMap.keys_erase, insertionSort_filter, pods]

lemma onsetPods_without : (i.without q).onsetPods = i.onsetPods.filter (· ≠ q) := by
  rw [onsetPods, rawOnsets_without, OrderedMap.keys_erase, onsetPods]

lemma peakOnset_without {p : Pod} (hp : p ≠ q) : (i.without q).peakOnset p = i.peakOnset p := by
  rw [peakOnset, rawOnsets_without, OrderedMap.get?_erase, if_neg hp, peakOnset]

lemma strength_without {p : Pod} (hp : p ≠ q) : (i.without q).strength p = i.strength p := by
  rw [strength, peakOnset_without i hp, strength]

variable {i} (hq : i.isolated q)
include hq

lemma notMem_coupledPods : q ∉ i.coupledPods := by
  intro hmem
  obtain ⟨-, hany⟩ := List.mem_filter.mp hmem
  obtain ⟨p, -, hp⟩ := List.any_eq_true.mp hany
  simp only [Bool.and_eq_true, decide_eq_true_eq] at hp
  rw [hq.couples_left hp.1] at hp
  simp at hp

lemma coupledPods_without : (i.without q).coupledPods = i.coupledPods := by
  have hw : (i.without q).witness = i.witness := rfl
  rw [coupledPods, onsetPods_without, List.filter_filter, coupledPods, hw]
  apply List.filter_congr
  intro p _
  rw [List.any_filter]
  by_cases hp : p = q
  · subst hp
    have hnone : (i.onsetPods.any fun r => r ≠ p && i.witness.couples p r) = false := by
      rw [List.any_eq_false]
      intro r _
      by_cases hr : r = p
      · simp [hr]
      · simp [hq.couples_left hr]
    rw [hnone]
    simp
  · have hany : (i.onsetPods.any fun r => decide (r ≠ q) && (decide (r ≠ p) && i.witness.couples p r)) =
        i.onsetPods.any fun r => r ≠ p && i.witness.couples p r := by
      apply List.any_congr rfl
      intro r
      by_cases hr : r = q
      · simp [hr, hq.couples_right hp]
      · simp [hr]
    rw [hany]
    simp [hp]

lemma centrePod_ne (hc : ¬ i.suppliesCentre q) : i.centrePod ≠ some q := by
  intro hcq
  rw [centrePod, centrePods] at hcq
  split_ifs at hcq with hnil
  · exact hc ⟨hnil, hcq⟩
  · exact notMem_coupledPods hq (List.argmax_mem hcq)

lemma centrePod_without (hc : ¬ i.suppliesCentre q) : (i.without q).centrePod = i.centrePod := by
  have hne := centrePod_ne hq hc
  have hst : ∀ l : List Pod, q ∉ l → l.argmax (i.without q).strength = l.argmax i.strength := by
    intro l hl
    apply argmax_congr
    intro p hp
    exact i.strength_without (by rintro rfl; exact hl hp)
  rw [centrePod, centrePods] at hne ⊢
  rw [coupledPods_without hq, onsetPods_without, centrePod, centrePods]
  split_ifs at hne ⊢ with hnil
  · rw [hst _ (by simp)]
    cases hm : i.onsetPods.argmax i.strength with
    | none =>
      rw [List.argmax_eq_none.mp hm]
      rfl
    | some p =>
      rw [hm] at hne
      exact argmax_filter hm (decide_eq_true fun hp => hne (congrArg some hp))
  · exact hst _ (notMem_coupledPods hq)

lemma centreIdx_without (hc : ¬ i.suppliesCentre q) : (i.without q).centreIdx = i.centreIdx := by
  have hne := centrePod_ne hq hc
  rw [centreIdx, centrePod_without hq hc, centreIdx]
  cases hp : i.centrePod with
  | none => rfl
  | some p =>
    rw [Option.bind_some, Option.bind_some, i.peakOnset_without]
    rintro rfl
    exact hne hp

end Onsets

section Verdict

variable {S i q} (hq : i.isolated q) (hc : ¬ i.suppliesCentre q)
include hq hc

lemma findings_without : (i.without q).findings = i.findings.erase q := by
  apply OrderedMap.filterMapVals_erase
  intro p hp
  funext x
  simp only [finding, i.rawOnsetsOf_without hp, centreIdx_without hq hc]
  rfl

lemma active_without : (i.without q).active = i.active.filter (· ≠ q) := by
  rw [active, findings_without hq hc, OrderedMap.keys_erase, active]

lemma get?_onsetS_without {p : Pod} (hp : p ≠ q) : (i.without q).onsetS.get? p = i.onsetS.get? p := by
  rw [onsetS, findings_without hq hc, OrderedMap.get?_mapVals, OrderedMap.get?_erase, if_neg hp, onsetS,
    OrderedMap.get?_mapVals]

lemma mem_active_without {p : Pod} (hp : p ≠ q) : p ∈ (i.without q).active ↔ p ∈ i.active := by
  simp [active_without hq hc, hp]

lemma centre_survives (hd : i.disturbed = true) :
    ∃ p, p ≠ q ∧ p ∈ i.active ∧ i.centrePod = some p := by
  obtain ⟨r, hr⟩ := i.disturbed_iff.mp hd
  have hne : i.centrePods ≠ [] := by
    rw [centrePods]
    split_ifs with hnil
    · exact List.ne_nil_of_mem (i.mem_active_iff_onsets.mp hr)
    · exact hnil
  cases hp : i.centrePod with
  | none => exact (hne (List.argmax_eq_none.mp hp)).elim
  | some p =>
    refine ⟨p, ?_, i.centrePod_active hp, rfl⟩
    rintro rfl
    exact centrePod_ne hq hc hp

lemma disturbed_without : (i.without q).disturbed = i.disturbed := by
  rw [Bool.eq_iff_iff]
  constructor
  · intro hd
    obtain ⟨p, hp⟩ := (disturbed_iff _).mp hd
    rw [active_without hq hc] at hp
    exact i.disturbed_iff.mpr ⟨p, List.mem_of_mem_filter hp⟩
  · intro hd
    obtain ⟨p, hne, hp, -⟩ := centre_survives hq hc hd
    exact (disturbed_iff _).mpr ⟨p, (mem_active_without hq hc hne).mpr hp⟩

variable {n : ℕ} (hlen : ∀ x ∈ i.vectors.values, x.length = n)
include hlen

omit hq hc in
lemma ringLength_eq {p : Pod} (hp : p ∈ i.vectors.keys) : i.ringLength = n := by
  obtain ⟨x, hx⟩ := (OrderedMap.mem_keys _ _).mp hp
  cases hv : i.vectors.values with
  | nil => simpa [hv] using OrderedMap.get?_mem_values hx
  | cons y ys =>
    rw [ringLength, hv]
    exact hlen y (by simp [hv])

lemma analysed_without : (i.without q).analysed = i.analysed := by
  funext x
  have hw : (i.without q).window = i.window := rfl
  simp only [analysed, hw, centreIdx_without hq hc]
  cases hi : i.centreIdx with
  | none => cases i.window <;> rfl
  | some c =>
    obtain ⟨o, ho, -⟩ := Option.map_eq_some_iff.mp hi
    obtain ⟨r, hr, -⟩ := Option.bind_eq_some_iff.mp ho
    have hd : i.disturbed = true := i.disturbed_iff.mpr ⟨r, i.centrePod_active hr⟩
    obtain ⟨p, hne, hp, -⟩ := centre_survives hq hc hd
    have hv := i.mem_vectors_of_active hp
    have hv' := (i.without q).mem_vectors_of_active ((mem_active_without hq hc hne).mpr hp)
    have hlen' : ∀ y ∈ (i.without q).vectors.values, y.length = n := by
      intro y hy
      obtain ⟨e, he, rfl⟩ := List.mem_map.mp hy
      exact hlen e.2 (List.mem_map_of_mem (List.mem_of_mem_filter he))
    simp only [sliceStart, ringLength_eq hlen hv, ringLength_eq hlen' hv']

lemma cvec_without {p : Pod} (hp : p ≠ q) : (i.without q).cvec p = i.cvec p := by
  have hv : (i.without q).vectors.get? p = i.vectors.get? p := by simp [without, hp]
  rw [cvec, analysed_without hq hc hlen, hv, cvec]

lemma get?_writeCvec_without {p : Pod} (hp : p ≠ q) :
    (i.without q).writeCvec.get? p = i.writeCvec.get? p := by
  have hv : (i.without q).writeVectors.get? p = i.writeVectors.get? p := by simp [without, hp]
  simp only [writeCvec, OrderedMap.get?_mapVals, analysed_without hq hc hlen, hv]

omit hlen in
lemma get?_writeOnsetS_without {p : Pod} (hp : p ≠ q) :
    (i.without q).writeOnsetS.get? p = i.writeOnsetS.get? p := by
  have hv : (i.without q).writeVectors.get? p = i.writeVectors.get? p := by simp [without, hp]
  simp only [writeOnsetS, OrderedMap.get?_filterMapVals, centreIdx_without hq hc, hv]

lemma psiEdge_without {a b : Pod} (ha : a ≠ q) (hb : b ≠ q) :
    (i.without q).psiEdge S a b = i.psiEdge S a b := by
  have hw : (i.without q).witness = i.witness := rfl
  simp only [psiEdge, hw, mem_active_without hq hc ha, mem_active_without hq hc hb,
    disturbed_without hq hc, cvec_without hq hc hlen ha, cvec_without hq hc hlen hb, acceptEdge,
    get?_onsetS_without hq hc ha, get?_onsetS_without hq hc hb]

omit hc hlen in
lemma psiEdge_isolated {a b : Pod} (hab : a ≠ b) (h : a = q ∨ b = q) : i.psiEdge S a b = none := by
  rcases h with rfl | rfl
  · simp [psiEdge, hq.couples_left hab.symm]
  · simp [psiEdge, hq.couples_right hab]

lemma psiEdges_without : (i.without q).psiEdges S = i.psiEdges S := by
  have hlt : ∀ p ∈ pairs i.pods, p.1 ≠ p.2 := by
    rintro ⟨a, b⟩ hp
    exact ((mem_pairs_sorted (sorted_nodup i.vectors.keys_nodup)).mp hp).2.2.ne
  rw [psiEdges, pods_without, pairs_filter, List.filterMap_filter, psiEdges]
  apply List.filterMap_congr
  rintro ⟨a, b⟩ hp
  by_cases h : a = q ∨ b = q
  · rw [psiEdge_isolated hq (hlt _ hp) h]
    rcases h with rfl | rfl <;> simp
  · obtain ⟨ha, hb⟩ := not_or.mp h
    simp [ha, hb, psiEdge_without hq hc hlen ha hb]

lemma sourceEdge_without {w v : Pod} (hw : w ≠ q) (hv : v ≠ q) :
    (i.without q).sourceEdge S w v = i.sourceEdge S w v := by
  have hwit : (i.without q).witness = i.witness := rfl
  have ho : w ∈ (i.without q).writeOnsetS.keys ↔ w ∈ i.writeOnsetS.keys := by
    simp only [OrderedMap.mem_keys, get?_writeOnsetS_without hq hc hw]
  simp only [sourceEdge, ho, hwit, mem_active_without hq hc hv, writeAct,
    get?_writeCvec_without hq hc hlen hw, get?_writeCvec_without hq hc hlen hv, cvec_without hq hc hlen hv,
    get?_writeOnsetS_without hq hc hw, get?_onsetS_without hq hc hv]
  rfl

omit hc hlen in
lemma sourceEdge_isolated {w v : Pod} (h : w = q ∨ v = q) : i.sourceEdge S w v = none := by
  by_contra hne
  obtain ⟨e, he⟩ := Option.ne_none_iff_exists'.mp hne
  obtain ⟨-, hvw, hcs, -⟩ := i.sourceEdge_spec S he
  rcases h with rfl | rfl
  · simp [hq.source_left hvw] at hcs
  · simp [hq.source_right hvw.symm] at hcs

lemma sourceEdges_without : (i.without q).sourceEdges S = i.sourceEdges S := by
  have hwriters : (i.without q).writers = i.writers.filter (· ≠ q) := by
    rw [writers, writeCvec, OrderedMap.keys_mapVals, without, OrderedMap.keys_erase, insertionSort_filter,
      writers, writeCvec, OrderedMap.keys_mapVals]
  rw [sourceEdges, pods_without, hwriters, sourceEdges]
  apply flatMap_filter
  · intro w hw
    rw [List.filterMap_filter]
    apply List.filterMap_congr
    intro v _
    by_cases hv : v = q
    · simp [hv, sourceEdge_isolated hq (Or.inr rfl)]
    · simp [hv, sourceEdge_without hq hc hlen (of_decide_eq_true hw) hv]
  · intro w hw
    apply List.filterMap_eq_nil_iff.mpr
    exact fun v _ => sourceEdge_isolated hq (Or.inl (by simpa using hw))

omit hc hlen in
lemma edge_avoids {e : Edge Pod} (he : e ∈ i.edges S) : e.src ≠ q ∧ e.dst ≠ q := by
  rcases (i.mem_edges S).mp he with hs | ⟨hp, -⟩
  · have hse := (i.mem_sourceEdges S).mp hs
    constructor
    · intro h
      simp [sourceEdge_isolated hq (Or.inl h)] at hse
    · intro h
      simp [sourceEdge_isolated hq (Or.inr h)] at hse
  · obtain ⟨a, b, -, -, hlt, hpe⟩ := (i.mem_psiEdges S).mp hp
    -- the pair does not depend on which of its pods the edge leaves
    have hmem : q ∈ e.pair → False := by
      intro hqp
      rw [i.psiEdge_pair S hpe] at hqp
      have hor : a = q ∨ b = q := (Sym2.mem_iff.mp hqp).imp Eq.symm Eq.symm
      simp [psiEdge_isolated hq hlt.ne hor] at hpe
    exact ⟨fun h => hmem (h ▸ Sym2.mem_mk_left _ _), fun h => hmem (h ▸ Sym2.mem_mk_right _ _)⟩

variable (hw : i.writeVectors.keys ≠ [q])
include hw

lemma edges_without : (i.without q).edges S = i.edges S := by
  have hnil : (i.without q).writeVectors.entries = [] ↔ i.writeVectors.entries = [] := by
    rw [← List.map_eq_nil_iff (f := Prod.fst), ← List.map_eq_nil_iff (f := Prod.fst)]
    change ((i.writeVectors.erase q).keys = []) ↔ (i.writeVectors.keys = [])
    rw [OrderedMap.keys_erase, List.filter_eq_nil_iff]
    constructor
    · intro hall
      have heq : ∀ p ∈ i.writeVectors.keys, p = q := by simpa using hall
      rw [List.eq_replicate_of_mem heq] at hw ⊢
      have hn := i.writeVectors.keys_nodup
      rw [List.eq_replicate_of_mem heq, List.nodup_replicate] at hn
      interval_cases i.writeVectors.keys.length
      · rfl
      · exact (hw rfl).elim
    · intro h
      simp [h]
  simp only [edges, hnil, psiEdges_without hq hc hlen, sourceEdges_without hq hc hlen]

end Verdict

end PassInput

open PassInput

theorem isolated_pod_neutral {Pod : Type} [LinearOrder Pod] (S : Stats) (i : PassInput Pod) (q : Pod) (n : ℕ)
    (hlen : ∀ x ∈ i.vectors.values, x.length = n) (hq : i.isolated q) (hc : ¬ i.suppliesCentre q)
    (hw : i.writeVectors.keys ≠ [q]) (g : PassGraph Pod) (h : runPass S i = some g) :
    ∃ g', runPass S (i.without q) = some g' ∧ g'.edges = g.edges ∧
      g'.rootCauseRanking = g.rootCauseRanking ∧ g'.blastRadius = g.blastRadius := by
  have hne := writeCvec_of_runPass h
  obtain rfl := runPass_eq h
  have hrun : runPass S (i.without q) = some ((i.without q).passGraph S) := by
    apply runPass_ok
    intro hmem
    apply hne
    obtain ⟨e, he, hnil⟩ := List.mem_map.mp hmem
    simp only [writeCvec, OrderedMap.mapVals, List.mem_map, analysed_without hq hc hlen] at he
    obtain ⟨d, hd, rfl⟩ := he
    rw [← hnil]
    exact List.mem_map_of_mem (List.mem_map_of_mem (List.mem_of_mem_filter hd))
  have hedges := edges_without (S := S) hq hc hlen hw
  have hoff : ∀ p ∈ nodes (buildGraph (i.edges S)), p ≠ q := by
    intro p hp
    obtain ⟨e, he, rfl | rfl⟩ := mem_nodes_buildGraph.mp hp
    · exact (edge_avoids hq he).1
    · exact (edge_avoids hq he).2
  have hrank : ((i.without q).passGraph S).rootCauseRanking = (i.passGraph S).rootCauseRanking := by
    simp only [passGraph, hedges]
    apply rankRootCauses_congr
    · intro p hp
      have hs : (i.without q).sloBreach = i.sloBreach := rfl
      rw [seeds, hs, seeds]
      split_ifs
      · rw [List.mem_insertionSort, List.mem_insertionSort, mem_active_without hq hc (hoff p hp)]
      · exact Iff.rfl
    · exact fun p hp => get?_onsetS_without hq hc (hoff p hp)
  refine ⟨_, hrun, hedges, hrank, ?_⟩
  have hblast : ∀ j : PassInput Pod, (j.passGraph S).blastRadius =
      (j.passGraph S).rootCauseRanking.head?.elim [] fun c => blastRadius (buildGraph (j.edges S)) c.pod :=
    fun _ => rfl
  rw [hblast, hblast, hrank, hedges]

def alternating (n : ℕ) : Vec := (List.range n).map fun k => (k % 2 : ℕ)

def waves : Vec := [0, 1, 2, 3, 2, 1, 0, 1, 2, 1, 0, 1, 2, 3, 4, 3, 2, 1, 0, 1, 2, 3, 2, 1]

def noisyInput : PassInput String where
  vectors := .ofList [("edge-gateway", stepVec 12 12), ("dcim-bridge", waves), ("timescaledb", waves)]
  witness := ⟨[], [], [s("dcim-bridge", "timescaledb")], []⟩
  sloBreach := []
  caps := .empty
  window := none
  writeVectors := .empty
  baselines := none
  recent := none

def twinInput : PassInput String where
  vectors := .ofList [("edge-gateway", alternating 26), ("timescaledb", stepVec 12 14),
    ("cooling-monitor", stepVec 13 13), ("dcim-bridge", stepVec 12 14), ("power-monitor", stepVec 13 13)]
  witness := ⟨[], [], [s("cooling-monitor", "timescaledb"), s("dcim-bridge", "power-monitor")], []⟩
  sloBreach := []
  caps := .empty
  window := none
  writeVectors := .ofList [("edge-gateway", alternating 26)]
  baselines := none
  recent := none

lemma isolated_of_shared {i : PassInput String} {q : String} {l : List (Sym2 String)}
    (hw : i.witness = ⟨[], [], l, []⟩) (h : ∀ z ∈ l, q ∉ z) : i.isolated q := by
  intro p _ hl
  simp only [Witness.links, Witness.networkLinked, hw, List.not_mem_nil, false_or, or_false] at hl
  exact h _ hl (Sym2.mem_mk_left _ _)

def stormyInput : PassInput String :=
  { noisyInput with
    vectors := .ofList [("edge-gateway", stepVec 12 12), ("dcim-bridge", stepVec 12 12),
      ("timescaledb", stepVec 12 12)] }

theorem isolated_pod_neutral_stormy : ∃ g', runPass momentStats (stormyInput.without "edge-gateway") = some g' ∧
    g'.edges = (stormyInput.passGraph momentStats).edges ∧
    g'.rootCauseRanking = (stormyInput.passGraph momentStats).rootCauseRanking ∧
    g'.blastRadius = (stormyInput.passGraph momentStats).blastRadius := by
  apply isolated_pod_neutral momentStats stormyInput "edge-gateway" 24
  · decide +kernel
  · exact isolated_of_shared rfl (by decide)
  · decide +kernel
  · decide
  · exact runPass_ok (by decide +kernel)

theorem isolated_pod_influences :
    (noisyInput.isolated "edge-gateway" ∧ "edge-gateway" ∉ noisyInput.sloBreach ∧
      (∀ x ∈ noisyInput.vectors.values, x.length = 24) ∧
      ∃ g g', runPass momentStats noisyInput = some g ∧
        runPass momentStats (noisyInput.without "edge-gateway") = some g' ∧
        g.edges.map (fun e => (e.src, e.dst)) = [("dcim-bridge", "timescaledb")] ∧ g'.edges = []) ∧
    twinInput.isolated "edge-gateway" ∧ "edge-gateway" ∉ twinInput.sloBreach ∧
      (∀ x ∈ twinInput.vectors.values, x.length = 26) ∧ ¬ twinInput.suppliesCentre "edge-gateway" ∧
      ∃ g g', runPass momentStats twinInput = some g ∧
        runPass momentStats (twinInput.without "edge-gateway") = some g' ∧
        g.rootCauseRanking.map RootCause.pod = ["dcim-bridge", "timescaledb"] ∧
        g'.rootCauseRanking.map RootCause.pod = ["timescaledb", "dcim-bridge"] := by
  refine ⟨⟨isolated_of_shared rfl (by decide), by decide, by decide +kernel, noisyInput.passGraph _,
    (noisyInput.without _).passGraph _, runPass_ok (by decide +kernel), runPass_ok (by decide +kernel), ?_, ?_⟩,
    isolated_of_shared rfl (by decide), by decide, by decide +kernel, by decide +kernel, twinInput.passGraph _,
    (twinInput.without _).passGraph _, runPass_ok (by decide +kernel), runPass_ok (by decide +kernel), ?_, ?_⟩
  · decide +kernel
  · decide +kernel
  · decide +kernel
  · decide +kernel

end CausalEngine.Correlation
