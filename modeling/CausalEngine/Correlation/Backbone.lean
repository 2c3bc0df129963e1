import CausalEngine.Foundations.Selection
import CausalEngine.Correlation.ImpactFacts

/-! The influence on the ranking of edges that carry no weight, such as the rows seeded for pairs
that were never confirmed: they change it exactly when they change which pods have no incoming edge. -/

namespace CausalEngine.Correlation

open Foundations DiGraph

variable {Pod : Type} [DecidableEq Pod]

section Extension

variable {E Z : List (Edge Pod)}

lemma extended_entries (hpair : ∀ z ∈ Z, ∀ e ∈ E, z.pair ≠ e.pair) :
    (buildGraph (E ++ Z)).entries = (buildGraph E).entries ++ (buildGraph Z).entries := by
  rw [buildGraph, List.map_append]
  apply OrderedMap.ofList_append
  rintro _ hza hk
  obtain ⟨z, hz, rfl⟩ := List.mem_map.mp hza
  rw [List.map_map] at hk
  obtain ⟨e, he, hez⟩ := List.mem_map.mp hk
  obtain ⟨hs, hd⟩ := Prod.mk.inj hez
  apply hpair z hz e he
  simp only [Edge.pair, hs, hd]

lemma extended_nodes (hpair : ∀ z ∈ Z, ∀ e ∈ E, z.pair ≠ e.pair) :
    ∃ extra, nodes (buildGraph (E ++ Z)) = nodes (buildGraph E) ++ extra ∧
      ∀ n ∈ extra, n ∉ nodes (buildGraph E) := by
  refine ⟨(((buildGraph Z).keys.flatMap fun k => [k.1, k.2]).removeAll
    ((buildGraph E).keys.flatMap fun k => [k.1, k.2])).eraseDups, ?_, ?_⟩
  · simp only [nodes, OrderedMap.keys, extended_entries hpair, List.map_append, List.flatMap_append]
    exact List.eraseDups_append
  · intro n hn he
    simp only [List.mem_eraseDups, List.removeAll, List.mem_filter, nodes] at hn he
    simp [he] at hn

lemma extended_inDegree (hpair : ∀ z ∈ Z, ∀ e ∈ E, z.pair ≠ e.pair) (n : Pod) :
    inDegree (buildGraph (E ++ Z)) n = inDegree (buildGraph E) n + inDegree (buildGraph Z) n := by
  simp [inDegree, OrderedMap.keys, extended_entries hpair]

lemma weightless_arc (hr : ∀ z ∈ Z, z.r = Coef.zero) {k : Pod × Pod} {a : ArcData}
    (h : (k, a) ∈ (buildGraph Z).entries) : a.weight.val = 0 := by
  obtain ⟨z, hz, hza⟩ := List.mem_map.mp (OrderedMap.mem_entries_ofList h)
  obtain rfl := (Prod.mk.inj hza).2
  simp [hr z hz, Coef.abs, Coef.zero]

variable (hr : ∀ z ∈ Z, z.r = Coef.zero) (hpair : ∀ z ∈ Z, ∀ e ∈ E, z.pair ≠ e.pair)
include hr hpair

lemma extended_impact (n : Pod) :
    forwardImpact (buildGraph (E ++ Z)) n = forwardImpact (buildGraph E) n := by
  obtain ⟨m, hm⟩ := impactSearch_terminates (buildGraph (E ++ Z)) n
  rw [forwardImpact_eq _ hm]
  refine (forwardImpact_eq _ (n := walkFuel (buildGraph (E ++ Z))) ?_).symm
  rw [← hm]
  apply Search.loop_congr
  intro x st
  have hsplit : (impactSearch (buildGraph (E ++ Z))).expand x =
      (impactSearch (buildGraph E)).expand x ++ (impactSearch (buildGraph Z)).expand x := by
    simp [impactSearch, outEdges, extended_entries hpair]
  rw [hsplit, List.foldl_append]
  symm
  apply Search.visits_refused
  intro m c hc
  obtain ⟨o, ho, rfl⟩ := List.mem_map.mp hc
  have hw := weightless_arc hr ((mem_outEdges _).mp ho)
  simp [impactSearch, hw, cut]

lemma extended_reach (seeds : List Pod) (n : Pod) :
    reach (buildGraph (E ++ Z)) seeds n = reach (buildGraph E) seeds n := by
  rw [reach, extended_impact hr hpair, reach]

lemma extended_explain {seeds seeds' : List Pod} {n : Pod}
    (hseeds : ∀ m ∈ nodes (buildGraph E), m ∈ seeds' ↔ m ∈ seeds) (hn : n ∈ nodes (buildGraph E))
    (hdeg : inDegree (buildGraph (E ++ Z)) n = 0 ↔ inDegree (buildGraph E) n = 0) :
    explain (buildGraph (E ++ Z)) seeds' n = explain (buildGraph E) seeds n := by
  have hreach : reach (buildGraph E) seeds' n = reach (buildGraph E) seeds n := by
    rw [reach, reach]
    congr 2
    apply List.filter_congr
    intro e he
    obtain ⟨_, _, u, a, ha, _⟩ := impact_bounds _ ((OrderedMap.get?_eq_some _ e.1 e.2).mpr he)
    have hk := List.mem_map_of_mem (f := Prod.fst) ha
    simpa using hseeds e.1 ((mem_nodes _).mpr ⟨_, hk, Or.inr rfl⟩)
  simp only [explain, extended_reach hr hpair, hreach, hseeds n hn, hdeg, Nat.pos_iff_ne_zero, ne_eq]

lemma newcomer_reach (seeds : List Pod) {n : Pod} (hn : n ∉ nodes (buildGraph E)) :
    reach (buildGraph (E ++ Z)) seeds n = 0 := by
  have hout : outEdges (buildGraph E) n = [] := by
    apply List.eq_nil_iff_forall_not_mem.mpr
    intro o ho
    have hk := List.mem_map_of_mem (f := Prod.fst) ((mem_outEdges _).mp ho)
    exact hn ((mem_nodes _).mpr ⟨_, hk, Or.inl rfl⟩)
  rw [extended_reach hr hpair, reach, impact_isolated _ hout]
  rfl

lemma extended_unscored {seeds : List Pod} {n : Pod} (hn : n ∉ nodes (buildGraph E))
    (hdeg : inDegree (buildGraph (E ++ Z)) n ≠ 0) : explain (buildGraph (E ++ Z)) seeds n = 0 := by
  simp [explain, newcomer_reach hr hpair seeds hn, hdeg]

lemma extended_scores {seeds : List Pod} (hseed : ∃ s ∈ seeds, s ∈ nodes (buildGraph E))
    (hor : ∀ n, isOrigin (buildGraph (E ++ Z)) n ↔ isOrigin (buildGraph E) n) :
    scores (buildGraph (E ++ Z)) (seedSet (buildGraph (E ++ Z)) seeds) =
      scores (buildGraph E) (seedSet (buildGraph E) seeds) := by
  obtain ⟨extra, hnodes, hextra⟩ := extended_nodes hpair
  have hsub : ∀ n ∈ nodes (buildGraph E), n ∈ nodes (buildGraph (E ++ Z)) := by
    intro n hn
    rw [hnodes]
    exact List.mem_append_left _ hn
  obtain ⟨s, hs, hsE⟩ := hseed
  have hseeds : ∀ m ∈ nodes (buildGraph E), m ∈ seedSet (buildGraph (E ++ Z)) seeds ↔
      m ∈ seedSet (buildGraph E) seeds := by
    intro m hm
    have h₁ : seeds.filter (· ∈ nodes (buildGraph E)) ≠ [] := by
      apply List.ne_nil_of_mem (a := s)
      simp [hs, hsE]
    have h₂ : seeds.filter (· ∈ nodes (buildGraph (E ++ Z))) ≠ [] := by
      apply List.ne_nil_of_mem (a := s)
      simp [hs, hsub s hsE]
    simp only [seedSet, if_neg h₁, if_neg h₂, List.mem_filter, hm, hsub m hm]
  have hold : ∀ n ∈ nodes (buildGraph E),
      explain (buildGraph (E ++ Z)) (seedSet (buildGraph (E ++ Z)) seeds) n =
        explain (buildGraph E) (seedSet (buildGraph E) seeds) n := by
    intro n hn
    apply extended_explain hr hpair hseeds hn
    have h := hor n
    simpa only [isOrigin, hn, hsub n hn, true_and] using h
  have hnew : ∀ n ∈ extra, explain (buildGraph (E ++ Z)) (seedSet (buildGraph (E ++ Z)) seeds) n = 0 := by
    intro n hn
    apply extended_unscored hr hpair (hextra n hn)
    intro hdeg
    have hmem : n ∈ nodes (buildGraph (E ++ Z)) := by
      rw [hnodes]
      exact List.mem_append_right _ hn
    exact hextra n hn ((hor n).mp ⟨hmem, hdeg⟩).1
  rw [scores, scores, hnodes, List.map_append, List.filter_append, List.map_congr_left fun n hn => by rw [hold n hn]]
  convert List.append_nil _
  simp only [List.filter_eq_nil_iff, List.mem_map, decide_eq_true_eq]
  rintro _ ⟨n, hn, rfl⟩
  simp [hnew n hn]

lemma origin_lost {n : Pod} (hn : isOrigin (buildGraph E) n)
    (hdeg : inDegree (buildGraph (E ++ Z)) n ≠ 0) :
    scores (buildGraph E) [n] ≠ [] ∧ scores (buildGraph (E ++ Z)) [n] = [] := by
  constructor
  · have h := explain_origin (buildGraph E) (List.mem_singleton_self n) hn.2
    apply List.ne_nil_of_mem (a := (n, explain (buildGraph E) [n] n))
    exact (mem_scores _).mpr ⟨hn.1, rfl, by linarith⟩
  · apply List.eq_nil_iff_forall_not_mem.mpr
    intro s hs
    obtain ⟨-, he, hp⟩ := (mem_scores _).mp hs
    have hreach : reach (buildGraph E) [n] s.1 = 0 := by
      have hnil : (forwardImpact (buildGraph E) s.1).entries.filter (fun e => e.1 ∈ [n]) = [] := by
        simp only [List.filter_eq_nil_iff, List.mem_singleton, decide_eq_true_eq]
        rintro e hmem rfl
        obtain ⟨_, _, u, a, ha, _⟩ := impact_bounds _ ((OrderedMap.get?_eq_some _ e.1 e.2).mpr hmem)
        exact (inDegree_eq_zero _).mp hn.2 _ (List.mem_map_of_mem (f := Prod.fst) ha) rfl
      simp only [reach, hnil, List.map_nil, List.sum_nil]
    have hown : ¬ (s.1 ∈ [n] ∧ inDegree (buildGraph (E ++ Z)) s.1 = 0) := by
      rintro ⟨hmem, h0⟩
      rw [List.mem_singleton.mp hmem] at h0
      exact hdeg h0
    rw [he, explain, extended_reach hr hpair, hreach, if_neg hown] at hp
    simp at hp

omit hr hpair in
lemma reach_pair {p q : Pod} (n : Pod) (hq : inDegree (buildGraph E) q = 0) :
    reach (buildGraph E) [p, q] n = ((forwardImpact (buildGraph E) n).get? p).getD 0 := by
  have hfilter : (forwardImpact (buildGraph E) n).entries.filter (fun e => e.1 ∈ [p, q]) =
      ((forwardImpact (buildGraph E) n).get? p).elim [] fun v => [(p, v)] := by
    rw [← OrderedMap.filter_key]
    apply List.filter_congr
    intro e he
    obtain ⟨_, _, u, a, ha, _⟩ := impact_bounds _ ((OrderedMap.get?_eq_some _ e.1 e.2).mpr he)
    have hne := (inDegree_eq_zero _).mp hq _ (List.mem_map_of_mem (f := Prod.fst) ha)
    simp [hne]
  rw [reach, hfilter]
  cases (forwardImpact (buildGraph E) n).get? p <;> simp

lemma explain_pair_le {p q n : Pod} (hq : inDegree (buildGraph E) q = 0) (hnq : n ≠ q) :
    explain (buildGraph (E ++ Z)) [p, q] n ≤ 1 := by
  have hle : reach (buildGraph E) [p, q] n ≤ 1 := by
    rw [reach_pair n hq]
    cases hv : (forwardImpact (buildGraph E) n).get? p with
    | none => norm_num
    | some v => exact (impact_bounds _ hv).2.1.trans (by norm_num [decay])
  have h₀ := reach_nonneg (buildGraph E) [p, q] n
  simp only [explain, extended_reach hr hpair]
  split_ifs with hpos hown hown
  · omega
  · have hu : upstreamPenalty ≤ 1 := by norm_num [upstreamPenalty]
    exact (mul_le_of_le_one_right h₀ hu).trans hle
  · -- `p` explains itself only as an origin, and then nothing else reaches it
    obtain rfl : n = p := by simpa [hnq] using hown.1
    have hdeg : inDegree (buildGraph E) n = 0 := by
      have := extended_inDegree hpair n
      omega
    rw [reach_pair n hq]
    cases hv : (forwardImpact (buildGraph E) n).get? n with
    | none => norm_num
    | some v =>
      obtain ⟨_, _, u, a, ha, _⟩ := impact_bounds _ hv
      exact ((inDegree_eq_zero _).mp hdeg _ (List.mem_map_of_mem (f := Prod.fst) ha) rfl).elim
  · exact hle

lemma newcomer_wins {p q : Pod} (hp : p ∈ nodes (buildGraph E)) (hq : q ∉ nodes (buildGraph E))
    (ho : isOrigin (buildGraph (E ++ Z)) q) :
    ((rankRootCauses (buildGraph (E ++ Z)) [p, q] (.ofList [(q, 0)])).head?.map RootCause.pod) = some q := by
  have hdeg : inDegree (buildGraph E) q = 0 := by
    have := extended_inDegree hpair q
    have := ho.2
    omega
  have hne : (buildGraph (E ++ Z)).entries ≠ [] := by
    rintro hnil
    have h := ho.1
    simp [nodes, OrderedMap.keys, hnil] at h
  have hseed : seedSet (buildGraph (E ++ Z)) [p, q] = [p, q] := by
    obtain ⟨extra, hnodes, -⟩ := extended_nodes hpair
    have hp' : p ∈ nodes (buildGraph (E ++ Z)) := hnodes ▸ List.mem_append_left _ hp
    simp [seedSet, hp', ho.1]
  have hexp : explain (buildGraph (E ++ Z)) [p, q] q = 1 := by
    simp [explain, newcomer_reach hr hpair [p, q] hq, ho.2]
  have hhead := head?_insertionSort (rankKey (.ofList [(q, 0)])) (a := (q, (1 : ℚ)))
    (l := scores (buildGraph (E ++ Z)) [p, q]) ?_ ?_
  · rw [rankRootCauses, if_neg hne, hseed, ranked, List.head?_map, List.head?_take, if_neg (by norm_num), hhead]
    rfl
  · exact (mem_scores _).mpr ⟨ho.1, hexp.symm, one_pos⟩
  · rintro ⟨n, v⟩ hs hsq
    obtain ⟨-, he, -⟩ := (mem_scores _).mp hs
    simp only at he
    have hnq : n ≠ q := by
      rintro rfl
      exact hsq (by rw [he, hexp])
    have hle : v ≤ 1 := he ▸ explain_pair_le hr hpair hdeg hnq
    have hget : (OrderedMap.ofList [(q, (0 : ℚ))]).get? n = none := by
      simp [OrderedMap.ofList, hnq]
    simp only [rankKey, hget, Prod.Lex.toLex_lt_toLex]
    rcases hle.lt_or_eq with hlt | rfl
    · exact Or.inl (by linarith)
    · refine Or.inr ⟨rfl, ?_⟩
      simp [OrderedMap.ofList]

lemma newcomer_seen (hE : E ≠ []) {n : Pod} (hn : n ∉ nodes (buildGraph E))
    (ho : isOrigin (buildGraph (E ++ Z)) n) :
    ∃ seeds onsetS, (∃ s ∈ seeds, s ∈ nodes (buildGraph E)) ∧
      (rankRootCauses (buildGraph (E ++ Z)) seeds onsetS).map (fun c => (c.pod, c.score)) ≠
        (rankRootCauses (buildGraph E) seeds onsetS).map (fun c => (c.pod, c.score)) := by
  obtain ⟨e, he⟩ := List.exists_mem_of_ne_nil E hE
  have hp := mem_nodes_buildGraph.mpr ⟨e, he, Or.inl rfl⟩
  refine ⟨[e.src, n], .ofList [(n, 0)], ⟨e.src, by simp, hp⟩, ?_⟩
  intro hsame
  have hwin := newcomer_wins hr hpair hp hn ho
  have hpods := congrArg (List.map Prod.fst) hsame
  simp only [List.map_map, Function.comp_def] at hpods
  rw [← List.head?_map, hpods] at hwin
  obtain ⟨c, hc, rfl⟩ := List.mem_map.mp (List.mem_of_head? hwin)
  rw [rankRootCauses, if_neg (buildGraph_entries_ne_nil hE)] at hc
  obtain ⟨s, hs, hsc⟩ := mem_ranked hc
  exact hn (hsc ▸ ((mem_scores _).mp hs).1)

lemma lost_origin_seen (hE : E ≠ []) {n : Pod} (ho : isOrigin (buildGraph E) n)
    (hdeg : inDegree (buildGraph (E ++ Z)) n ≠ 0) :
    ∃ seeds onsetS, (∃ s ∈ seeds, s ∈ nodes (buildGraph E)) ∧
      (rankRootCauses (buildGraph (E ++ Z)) seeds onsetS).map (fun c => (c.pod, c.score)) ≠
        (rankRootCauses (buildGraph E) seeds onsetS).map (fun c => (c.pod, c.score)) := by
  obtain ⟨hold, hnew⟩ := origin_lost hr hpair ho hdeg
  obtain ⟨extra, hnodes, -⟩ := extended_nodes hpair
  have hn' : n ∈ nodes (buildGraph (E ++ Z)) := hnodes ▸ List.mem_append_left _ ho.1
  have hs : seedSet (buildGraph E) [n] = [n] := by simp [seedSet, ho.1]
  have hs' : seedSet (buildGraph (E ++ Z)) [n] = [n] := by simp [seedSet, hn']
  refine ⟨[n], .empty, ⟨n, by simp, ho.1⟩, ?_⟩
  intro hsame
  rw [rankRootCauses, rankRootCauses, if_neg (buildGraph_entries_ne_nil hE),
    if_neg (buildGraph_entries_ne_nil (by simp [hE])), hs, hs', hnew] at hsame
  have hnil : ranked (scores (buildGraph E) [n]) .empty = [] := by
    simpa [ranked] using hsame.symm
  exact ranked_ne_nil _ hold hnil

lemma ranking_extended {seeds : List Pod} {onsetS : OrderedMap Pod ℚ} (hE : E ≠ [])
    (hseed : ∃ s ∈ seeds, s ∈ nodes (buildGraph E))
    (hor : ∀ n, isOrigin (buildGraph (E ++ Z)) n ↔ isOrigin (buildGraph E) n) :
    rankRootCauses (buildGraph (E ++ Z)) seeds onsetS = rankRootCauses (buildGraph E) seeds onsetS := by
  rw [rankRootCauses, rankRootCauses, if_neg (buildGraph_entries_ne_nil hE),
    if_neg (buildGraph_entries_ne_nil (by simp [hE])), extended_scores hr hpair hseed hor]

end Extension

theorem backbone_neutral_iff (E Z : List (Edge Pod)) (hE : E ≠ []) (hr : ∀ z ∈ Z, z.r = Coef.zero)
    (hpair : ∀ z ∈ Z, ∀ e ∈ E, z.pair ≠ e.pair) :
    (∀ seeds onsetS, (∃ s ∈ seeds, s ∈ nodes (buildGraph E)) →
      (rankRootCauses (buildGraph (E ++ Z)) seeds onsetS).map (fun c => (c.pod, c.score)) =
        (rankRootCauses (buildGraph E) seeds onsetS).map (fun c => (c.pod, c.score))) ↔
      ∀ n, isOrigin (buildGraph (E ++ Z)) n ↔ isOrigin (buildGraph E) n := by
  obtain ⟨extra, hnodes, -⟩ := extended_nodes hpair
  constructor
  · intro h n
    constructor
    · intro ho
      by_contra hno
      have hdeg : inDegree (buildGraph E) n = 0 := by
        have hsum := extended_inDegree hpair n
        have hzero := ho.2
        omega
      have hnew : n ∉ nodes (buildGraph E) := fun hn => hno ⟨hn, hdeg⟩
      obtain ⟨seeds, onsetS, hseed, hne⟩ := newcomer_seen hr hpair hE hnew ho
      exact hne (h seeds onsetS hseed)
    · intro ho
      refine ⟨hnodes ▸ List.mem_append_left _ ho.1, ?_⟩
      by_contra hdeg
      obtain ⟨seeds, onsetS, hseed, hne⟩ := lost_origin_seen hr hpair hE ho hdeg
      exact hne (h seeds onsetS hseed)
  · intro hor seeds onsetS hseed
    rw [ranking_extended hr hpair hE hseed hor]

def stormEdges : List (Edge String) := [⟨"timescaledb", "dcim-bridge", ⟨9 / 10, by norm_num⟩, 5, [.write, .pvc]⟩]

def seededEdges : List (Edge String) :=
  [⟨"cooling-monitor", "timescaledb", Coef.zero, 0, [.pvc]⟩,
    ⟨"cooling-monitor", "dcim-bridge", Coef.zero, 0, [.pvc]⟩]

def fannedEdges : List (Edge String) := [⟨"timescaledb", "power-monitor", Coef.zero, 0, [.pvc]⟩]

theorem backbone_neutral_iff_fanned :
    nodes (buildGraph (stormEdges ++ fannedEdges)) ≠ nodes (buildGraph stormEdges) ∧
      ∀ (seeds : List String) (onsetS : OrderedMap String ℚ), (∃ s ∈ seeds, s ∈ nodes (buildGraph stormEdges)) →
        (rankRootCauses (buildGraph (stormEdges ++ fannedEdges)) seeds onsetS).map (fun c => (c.pod, c.score)) =
          (rankRootCauses (buildGraph stormEdges) seeds onsetS).map fun c => (c.pod, c.score) := by
  have hnodes : nodes (buildGraph (stormEdges ++ fannedEdges)) = ["timescaledb", "dcim-bridge", "power-monitor"] ∧
      nodes (buildGraph stormEdges) = ["timescaledb", "dcim-bridge"] := by decide +kernel
  have hin : inDegree (buildGraph (stormEdges ++ fannedEdges)) "timescaledb" = 0 ∧
      inDegree (buildGraph (stormEdges ++ fannedEdges)) "dcim-bridge" = 1 ∧
      inDegree (buildGraph (stormEdges ++ fannedEdges)) "power-monitor" = 1 ∧
      inDegree (buildGraph stormEdges) "timescaledb" = 0 ∧ inDegree (buildGraph stormEdges) "dcim-bridge" = 1 := by
    decide +kernel
  refine ⟨by simp [hnodes], ?_⟩
  refine (backbone_neutral_iff stormEdges fannedEdges (by decide) (by decide +kernel) (by decide)).mpr ?_
  intro n
  simp only [isOrigin, hnodes.1, hnodes.2, List.mem_cons, List.not_mem_nil, or_false]
  constructor
  · rintro ⟨rfl | rfl | rfl, hd⟩ <;> simp_all
  · rintro ⟨rfl | rfl, hd⟩ <;> simp_all

theorem backbone_not_neutral :
    stormEdges ≠ [] ∧ (∀ z ∈ seededEdges, z.r = Coef.zero) ∧
      (∀ z ∈ seededEdges, ∀ e ∈ stormEdges, z.pair ≠ e.pair) ∧
      (∃ s ∈ ["cooling-monitor", "dcim-bridge"], s ∈ nodes (buildGraph stormEdges)) ∧
      (rankRootCauses (buildGraph stormEdges) ["cooling-monitor", "dcim-bridge"] .empty).map
          (fun c => (c.pod, c.score)) = [("timescaledb", 1)] ∧
      (rankRootCauses (buildGraph (stormEdges ++ seededEdges)) ["cooling-monitor", "dcim-bridge"] .empty).map
          (fun c => (c.pod, c.score)) = [("cooling-monitor", 760 / 1000), ("timescaledb", 240 / 1000)] := by
  refine ⟨?_, ?_, ?_, ?_, ?_, ?_⟩ <;> decide +kernel

end CausalEngine.Correlation
