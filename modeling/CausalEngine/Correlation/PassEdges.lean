import CausalEngine.Correlation.Pipeline

/-! The edges of a pass read as a set: every source edge, and every psi edge on a pair that no source
edge claims. Both kinds have passed the gate of their kind. -/

namespace CausalEngine.Correlation

open Foundations

variable {Pod : Type} [LinearOrder Pod]

section Writer

variable {S : Stats} {src dst : Pod} {wsrc vdst : Vec} {w : Witness Pod} {wOnset vOnset : Option ℚ}
  {e : Edge Pod}

lemma writerEdge_spec (h : writerEdge S src dst wsrc vdst w wOnset vOnset = some e) :
    e.src = src ∧ e.dst = dst ∧ e.isSource ∧ rSrc ≤ e.r.val ∧ tooLate wOnset vOnset = false := by
  simp only [writerEdge] at h
  cases hm : (lagProfile S wsrc vdst).entries.argmax fun e => e.2.val with
  | none => simp [hm] at h
  | some p =>
    simp only [hm] at h
    split_ifs at h with hk hr ht
    obtain rfl := Option.some.inj h
    simp only [not_or, not_lt] at hr
    refine ⟨rfl, rfl, List.mem_cons_self, ?_, by simpa using ht⟩
    have hk : rSrc = ((500 : ℤ) : ℚ) / 10 ^ 3 := by norm_num [rSrc]
    rw [hk] at hr ⊢
    exact le_roundTo 500 hr.1

end Writer

namespace PassInput

variable (S : Stats) (i : PassInput Pod)

lemma finding_pod {p : Pod} {x : Vec} {f : Finding Pod} (h : i.finding p x = some f) : f.pod = p := by
  obtain ⟨ons, _, h⟩ := Option.bind_eq_some_iff.mp h
  obtain ⟨ev, _, rfl⟩ := Option.map_eq_some_iff.mp h
  rfl

lemma mem_active {p : Pod} : p ∈ i.active ↔ ∃ f ∈ i.findings.values, f.pod = p := by
  rw [active, OrderedMap.mem_keys]
  constructor
  · rintro ⟨f, hf⟩
    refine ⟨f, OrderedMap.get?_mem_values hf, ?_⟩
    rw [findings, OrderedMap.get?_filterMapVals] at hf
    obtain ⟨x, _, hx⟩ := Option.bind_eq_some_iff.mp hf
    exact i.finding_pod hx
  · rintro ⟨f, hf, rfl⟩
    obtain ⟨⟨k, f⟩, he, rfl⟩ := List.mem_map.mp hf
    have hg := (i.findings.get?_eq_some k f).mpr he
    have hg' := hg
    rw [findings, OrderedMap.get?_filterMapVals] at hg'
    obtain ⟨x, _, hx⟩ := Option.bind_eq_some_iff.mp hg'
    exact ⟨f, (i.finding_pod hx).symm ▸ hg⟩

lemma nearest_isSome {c : Option ℕ} {ons : List Onset} (h : ons ≠ []) : (nearest c ons).isSome := by
  rw [Option.isSome_iff_ne_none]
  cases c with
  | none => simpa [nearest] using h
  | some c => simpa [nearest] using h

lemma mem_active_iff_onsets {p : Pod} : p ∈ i.active ↔ p ∈ i.onsetPods := by
  simp only [active, onsetPods, OrderedMap.mem_keys, findings, rawOnsets, OrderedMap.get?_filterMapVals,
    Option.bind_eq_some_iff, finding, Option.map_eq_some_iff]
  constructor
  · rintro ⟨f, x, hx, ons, hons, -⟩
    exact ⟨ons, x, hx, hons⟩
  · rintro ⟨ons, x, hx, hons⟩
    have hne : ons ≠ [] := by
      simp only [rawOnsetsOf] at hons
      split_ifs at hons with hnil
      exact Option.some.inj hons ▸ hnil
    obtain ⟨ev, hev⟩ := Option.isSome_iff_exists.mp (nearest_isSome (c := i.centreIdx) hne)
    exact ⟨_, x, hx, ons, hons, ev, hev, rfl⟩

lemma centrePod_active {p : Pod} (h : i.centrePod = some p) : p ∈ i.active := by
  apply i.mem_active_iff_onsets.mpr
  have hmem := List.argmax_mem h
  rw [centrePods] at hmem
  split_ifs at hmem
  · exact hmem
  · exact List.mem_of_mem_filter hmem

lemma get?_onsetS {f : Finding Pod} (h : f ∈ i.findings.values) : i.onsetS.get? f.pod = some f.onsetS := by
  obtain ⟨⟨k, f⟩, he, rfl⟩ := List.mem_map.mp h
  have hg := (i.findings.get?_eq_some k f).mpr he
  have hg' := hg
  rw [findings, OrderedMap.get?_filterMapVals] at hg'
  obtain ⟨x, _, hx⟩ := Option.bind_eq_some_iff.mp hg'
  rw [onsetS, OrderedMap.get?_mapVals, i.finding_pod hx, hg]
  rfl

lemma nodup_pods : i.pods.Nodup := (List.perm_insertionSort _ _).nodup_iff.mpr i.vectors.keys_nodup

lemma mem_pods {p : Pod} : p ∈ i.pods ↔ p ∈ i.vectors.keys := List.mem_insertionSort _

lemma psiEdge_spec {a b : Pod} {e : Edge Pod} (h : i.psiEdge S a b = some e) :
    ∃ src dst r lag prof, s(src, dst) = s(a, b) ∧
      acceptEdge src dst r lag prof i.witness i.onsetS = some e := by
  simp only [psiEdge] at h
  split_ifs at h with h₁ h₂ h₃
  · exact ⟨a, b, _, _, _, rfl, h⟩
  · exact ⟨b, a, _, _, _, Sym2.eq_swap, h⟩

lemma psiEdge_pair {a b : Pod} {e : Edge Pod} (h : i.psiEdge S a b = some e) : e.pair = s(a, b) := by
  obtain ⟨src, dst, r, lag, prof, hp, ha⟩ := i.psiEdge_spec S h
  obtain ⟨-, -, -, rfl⟩ := acceptEdge_spec ha
  exact hp

lemma mem_psiEdges {e : Edge Pod} : e ∈ i.psiEdges S ↔
    ∃ a b, a ∈ i.vectors.keys ∧ b ∈ i.vectors.keys ∧ a < b ∧ i.psiEdge S a b = some e := by
  simp only [psiEdges, List.mem_filterMap, Prod.exists, pods,
    mem_pairs_sorted (sorted_nodup i.vectors.keys_nodup), List.mem_insertionSort, and_assoc]

lemma psiEdge_not_source {a b : Pod} {e : Edge Pod} (h : i.psiEdge S a b = some e) : ¬ e.isSource := by
  obtain ⟨_, _, _, _, _, _, ha⟩ := i.psiEdge_spec S h
  exact acceptEdge_not_source ha

lemma psiEdges_nodup : ((i.psiEdges S).map Edge.pair).Nodup := by
  refine (pairs_nodup i.nodup_pods).sublist (map_filterMap_sublist ?_ _)
  exact fun p e he => i.psiEdge_pair S he

lemma sourceEdge_spec {w v : Pod} {e : Edge Pod} (h : i.sourceEdge S w v = some e) :
    w ∈ i.writeOnsetS.keys ∧ v ≠ w ∧ i.witness.couplesSource w v = true ∧ v ∈ i.active ∧
      i.writeAct v < i.writeAct w ∧ e.src = w ∧ e.dst = v ∧ e.isSource ∧ rSrc ≤ e.r.val ∧
      tooLate (i.writeOnsetS.get? w) (i.onsetS.get? v) = false := by
  simp only [sourceEdge] at h
  split_ifs at h with h₁ h₂ h₃ h₄
  simp only [not_or, Bool.not_eq_false, not_le] at h₁ h₂ h₃ h₄
  exact ⟨h₁, h₂.1, h₂.2, h₃, h₄, writerEdge_spec h⟩

lemma mem_vectors_of_active {p : Pod} (h : p ∈ i.active) : p ∈ i.vectors.keys := by
  obtain ⟨v, hv⟩ := (OrderedMap.mem_keys _ _).mp h
  rw [findings, OrderedMap.get?_filterMapVals] at hv
  obtain ⟨x, hx, _⟩ := Option.bind_eq_some_iff.mp hv
  exact (OrderedMap.mem_keys _ _).mpr ⟨x, hx⟩

lemma mem_writeVectors_of_onset {p : Pod} (h : p ∈ i.writeOnsetS.keys) : p ∈ i.writeVectors.keys := by
  obtain ⟨t, ht⟩ := (OrderedMap.mem_keys _ _).mp h
  rw [writeOnsetS, OrderedMap.get?_filterMapVals] at ht
  obtain ⟨x, hx, _⟩ := Option.bind_eq_some_iff.mp ht
  exact (OrderedMap.mem_keys _ _).mpr ⟨x, hx⟩

lemma mem_sourceEdges {e : Edge Pod} : e ∈ i.sourceEdges S ↔ i.sourceEdge S e.src e.dst = some e := by
  simp only [sourceEdges, List.mem_flatMap, List.mem_filterMap, writers, List.mem_insertionSort, mem_pods]
  constructor
  · rintro ⟨w, _, v, _, h⟩
    obtain ⟨-, -, -, -, -, rfl, rfl, -⟩ := i.sourceEdge_spec S h
    exact h
  · intro h
    obtain ⟨hw, -, -, hv, -⟩ := i.sourceEdge_spec S h
    refine ⟨e.src, ?_, e.dst, ?_, h⟩
    · rw [writeCvec, OrderedMap.keys_mapVals]
      exact i.mem_writeVectors_of_onset hw
    · exact i.mem_vectors_of_active hv

lemma sourceEdges_unique {e e' : Edge Pod} (he : e ∈ i.sourceEdges S) (he' : e' ∈ i.sourceEdges S)
    (hp : e.pair = e'.pair) : e = e' := by
  have h := (i.mem_sourceEdges S).mp he
  have h' := (i.mem_sourceEdges S).mp he'
  obtain ⟨-, -, -, -, hlt, -⟩ := i.sourceEdge_spec S h
  obtain ⟨-, -, -, -, hlt', -⟩ := i.sourceEdge_spec S h'
  rcases Sym2.eq_iff.mp hp with ⟨hs, hd⟩ | ⟨hs, hd⟩
  · rw [hs, hd, h'] at h
    exact (Option.some.inj h).symm
  · rw [hs, hd] at hlt
    exact (lt_asymm hlt hlt').elim

lemma psiEdges_unique {e e' : Edge Pod} (he : e ∈ i.psiEdges S) (he' : e' ∈ i.psiEdges S)
    (hp : e.pair = e'.pair) : e = e' :=
  List.inj_on_of_nodup_map (i.psiEdges_nodup S) he he' hp

omit [LinearOrder Pod] in
lemma edgePref_lt {e e' : Edge Pod} (h : ¬ e.isSource) (h' : e'.isSource) : edgePref e < edgePref e' := by
  simp [edgePref, h, h', Prod.Lex.toLex_lt_toLex]

lemma sourceEdges_nil (h : i.writeVectors.entries = []) : i.sourceEdges S = [] := by
  simp [sourceEdges, writers, writeCvec, OrderedMap.keys, OrderedMap.mapVals, h]

lemma mem_edges {e : Edge Pod} : e ∈ i.edges S ↔
    e ∈ i.sourceEdges S ∨ (e ∈ i.psiEdges S ∧ ∀ e' ∈ i.sourceEdges S, e'.pair ≠ e.pair) := by
  simp only [edges]
  split_ifs with hnil
  · simp [i.sourceEdges_nil S hnil]
  have hsrc : ∀ {e}, e ∈ i.sourceEdges S → e.isSource := by
    intro e he
    obtain ⟨-, -, -, -, -, -, -, hs, -⟩ := i.sourceEdge_spec S ((i.mem_sourceEdges S).mp he)
    exact hs
  have hpsi : ∀ {e}, e ∈ i.psiEdges S → ¬ e.isSource := by
    intro e he
    obtain ⟨_, _, _, _, _, h⟩ := (i.mem_psiEdges S).mp he
    exact i.psiEdge_not_source S h
  rw [oneEdgePerPair, List.mem_insertionSort, mem_values_bestByKey]
  obtain ⟨hsome, hnone⟩ := get?_bestByKey Edge.pair edgePref (i.psiEdges S ++ i.sourceEdges S) e.pair
  constructor
  · intro h
    obtain ⟨hmem, -, hbest⟩ := hsome e h
    rcases List.mem_append.mp hmem with he | he
    · refine Or.inr ⟨he, ?_⟩
      intro e' he' hp
      exact (hbest e' (List.mem_append_right _ he') hp).not_gt (edgePref_lt (hpsi he) (hsrc he'))
    · exact Or.inl he
  · intro h
    have hmem : e ∈ i.psiEdges S ++ i.sourceEdges S := by
      rcases h with h | h
      · exact List.mem_append_right _ h
      · exact List.mem_append_left _ h.1
    cases hg : (bestByKey Edge.pair edgePref (i.psiEdges S ++ i.sourceEdges S)).get? e.pair with
    | none => exact (hnone hg e hmem rfl).elim
    | some f =>
      obtain ⟨hf, hfp, hbest⟩ := hsome f hg
      rcases h with h | ⟨h, hno⟩
      · rcases List.mem_append.mp hf with hf | hf
        · exact ((hbest e hmem rfl).not_gt (edgePref_lt (hpsi hf) (hsrc h))).elim
        · rw [i.sourceEdges_unique S hf h hfp]
      · rcases List.mem_append.mp hf with hf | hf
        · rw [i.psiEdges_unique S hf h hfp]
        · exact (hno f hf hfp).elim

/-- The window admits an edge: the source tests do, or the gate does where they admit neither direction. -/
def Admits (p q : Pod) : Prop :=
  (∃ e, i.sourceEdge S p q = some e) ∨ i.sourceEdge S p q = none ∧ i.sourceEdge S q p = none ∧
    ∃ a b e, a ∈ i.vectors.keys ∧ b ∈ i.vectors.keys ∧ a < b ∧ i.psiEdge S a b = some e ∧ e.src = p ∧ e.dst = q

lemma admits_iff {p q : Pod} : i.Admits S p q ↔ ∃ e ∈ i.edges S, e.src = p ∧ e.dst = q := by
  simp only [mem_edges]
  constructor
  · rintro (⟨e, he⟩ | ⟨hpq, hqp, a, b, e, ha, hb, hab, hpe, rfl, rfl⟩)
    · obtain ⟨-, -, -, -, -, rfl, rfl, -⟩ := i.sourceEdge_spec S he
      exact ⟨e, Or.inl ((i.mem_sourceEdges S).mpr he), rfl, rfl⟩
    · refine ⟨e, Or.inr ⟨(i.mem_psiEdges S).mpr ⟨a, b, ha, hb, hab, hpe⟩, ?_⟩, rfl, rfl⟩
      intro e' he' hp
      have hse := (i.mem_sourceEdges S).mp he'
      rcases Sym2.eq_iff.mp hp with ⟨hs, hd⟩ | ⟨hs, hd⟩
      · simp [hs, hd, hpq] at hse
      · simp [hs, hd, hqp] at hse
  · rintro ⟨e, he | ⟨he, hno⟩, rfl, rfl⟩
    · exact Or.inl ⟨e, (i.mem_sourceEdges S).mp he⟩
    · have hnone : ∀ p q, s(p, q) = e.pair → i.sourceEdge S p q = none := by
        intro p q hp
        cases hse : i.sourceEdge S p q with
        | none => rfl
        | some e' =>
          obtain ⟨-, -, -, -, -, rfl, rfl, -⟩ := i.sourceEdge_spec S hse
          exact (hno e' ((i.mem_sourceEdges S).mpr hse) hp).elim
      obtain ⟨a, b, ha, hb, hab, hpe⟩ := (i.mem_psiEdges S).mp he
      exact Or.inr ⟨hnone _ _ rfl, hnone _ _ Sym2.eq_swap, a, b, e, ha, hb, hab, hpe, rfl, rfl⟩

lemma edge_distinct {e : Edge Pod} (he : e ∈ i.edges S) : e.src ≠ e.dst := by
  rcases (i.mem_edges S).mp he with he | ⟨he, -⟩
  · obtain ⟨-, hne, -, -, -, hs, hd, -⟩ := i.sourceEdge_spec S ((i.mem_sourceEdges S).mp he)
    exact hne.symm
  · obtain ⟨a, b, -, -, hlt, hpe⟩ := (i.mem_psiEdges S).mp he
    intro hsd
    rcases Sym2.eq_iff.mp (i.psiEdge_pair S hpe) with ⟨ha, hb⟩ | ⟨ha, hb⟩
    · exact hlt.ne (by rw [← ha, ← hb, hsd])
    · exact hlt.ne (by rw [← ha, ← hb, hsd])

lemma edges_nodup : ((i.edges S).map Edge.pair).Nodup := by
  simp only [edges]
  split_ifs
  · exact i.psiEdges_nodup S
  · have hp := (List.perm_insertionSort (fun a b : Edge Pod => edgeKey a ≤ edgeKey b)
      (bestByKey Edge.pair edgePref (i.psiEdges S ++ i.sourceEdges S)).values).map Edge.pair
    apply hp.nodup_iff.mpr
    rw [map_values_bestByKey]
    exact OrderedMap.keys_nodup _

end PassInput

end CausalEngine.Correlation
