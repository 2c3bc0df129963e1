import CausalEngine.Correlation.Ranking
import CausalEngine.Foundations.Selection

/-! What the impact search returns on any graph, and how graphs are read through their arcs. -/

namespace CausalEngine.Correlation

open Foundations DiGraph

variable {Pod : Type} [DecidableEq Pod] (g : DiGraph Pod)

namespace DiGraph

lemma mem_nodes {n : Pod} : n ∈ nodes g ↔ ∃ k ∈ g.keys, n = k.1 ∨ n = k.2 := by
  simp [nodes]

variable {g} in
lemma node_of_entry {e : (Pod × Pod) × ArcData} (he : e ∈ g.entries) : e.1.1 ∈ nodes g ∧ e.1.2 ∈ nodes g := by
  have hk := List.mem_map_of_mem (f := Prod.fst) he
  exact ⟨(mem_nodes g).mpr ⟨_, hk, Or.inl rfl⟩, (mem_nodes g).mpr ⟨_, hk, Or.inr rfl⟩⟩

lemma inDegree_eq_zero {n : Pod} : inDegree g n = 0 ↔ ∀ k ∈ g.keys, k.2 ≠ n := by
  simp [inDegree, List.filter_eq_nil_iff]

lemma mem_outEdges {n : Pod} {o : Pod × ArcData} : o ∈ outEdges g n ↔ ((n, o.1), o.2) ∈ g.entries := by
  simp only [outEdges, List.mem_map, List.mem_filter, decide_eq_true_eq]
  constructor
  · rintro ⟨⟨⟨u, v⟩, a⟩, ⟨he, rfl⟩, rfl⟩
    exact he
  · exact fun h => ⟨_, ⟨h, rfl⟩, rfl⟩

def isOrigin (n : Pod) : Prop := n ∈ nodes g ∧ inDegree g n = 0

lemma mem_keys_buildGraph {E : List (Edge Pod)} {k : Pod × Pod} :
    k ∈ (buildGraph E).keys ↔ ∃ e ∈ E, (e.src, e.dst) = k := by
  simp [buildGraph, OrderedMap.mem_keys_ofList, Edge.arc]

lemma mem_nodes_buildGraph {E : List (Edge Pod)} {n : Pod} :
    n ∈ nodes (buildGraph E) ↔ ∃ e ∈ E, n = e.src ∨ n = e.dst := by
  rw [mem_nodes]
  constructor
  · rintro ⟨k, hk, hn⟩
    obtain ⟨e, he, rfl⟩ := mem_keys_buildGraph.mp hk
    exact ⟨e, he, hn⟩
  · rintro ⟨e, he, hn⟩
    exact ⟨_, mem_keys_buildGraph.mpr ⟨e, he, rfl⟩, hn⟩

lemma buildGraph_entries_ne_nil {E : List (Edge Pod)} (h : E ≠ []) : (buildGraph E).entries ≠ [] := by
  obtain ⟨e, he⟩ := List.exists_mem_of_ne_nil E h
  have hk := mem_keys_buildGraph.mpr ⟨e, he, rfl⟩
  rintro hnil
  simp [OrderedMap.keys, hnil] at hk

end DiGraph

lemma forwardImpact_eq {root : Pod} {n : ℕ} {m : OrderedMap Pod ℚ}
    (h : (impactSearch g).loop n [(root, 1)] .empty = some m) : forwardImpact g root = m := by
  obtain ⟨r, hr⟩ := impactSearch_terminates g root
  rw [forwardImpact, hr, (impactSearch g).loop_unique h hr]
  rfl

lemma impact_bounds {root n : Pod} {v : ℚ} (h : (forwardImpact g root).get? n = some v) :
    cut ≤ v ∧ v ≤ decay ∧ ∃ u a, ((u, n), a) ∈ g.entries ∧ 0 < a.weight.val := by
  obtain ⟨r, hr⟩ := impactSearch_terminates g root
  rw [forwardImpact_eq g hr] at h
  revert n v
  apply (impactSearch g).loop_invariant (Q := fun x => 0 ≤ x.2 ∧ x.2 ≤ 1) ?_ (by simp) (by simp) hr
  rintro x m ⟨hx₀, hx₁⟩ hm c hc ha
  obtain ⟨o, ho, rfl⟩ := List.mem_map.mp hc
  simp only [impactSearch, Bool.not_eq_true', Bool.or_eq_false_iff, decide_eq_false_iff_not, not_lt] at ha
  obtain ⟨hb₀, hb₁⟩ := decayed_bounds hx₀ o.2.weight
  have hle : x.2 * o.2.weight.val * decay ≤ decay :=
    hb₁.trans (mul_le_of_le_one_left (by norm_num [decay]) hx₁)
  refine ⟨?_, hb₀, hle.trans (by norm_num [decay])⟩
  intro n v hv
  rw [OrderedMap.get?_set] at hv
  split_ifs at hv with hn
  · obtain rfl : x.2 * o.2.weight.val * decay = v := Option.some.inj hv
    subst hn
    refine ⟨ha.1, hle, x.1, o.2, (mem_outEdges g).mp ho, ?_⟩
    apply o.2.weight.property.1.lt_of_ne
    rintro h0
    have hc0 := ha.1
    rw [← h0] at hc0
    norm_num [cut] at hc0
  · exact hm hv

lemma impact_isolated {root : Pod} (h : outEdges g root = []) : forwardImpact g root = .empty := by
  apply forwardImpact_eq g (n := 1)
  simp [Search.loop, impactSearch, h]

lemma reach_nonneg (seeds : List Pod) (n : Pod) : 0 ≤ reach g seeds n := by
  apply List.sum_nonneg
  intro v hv
  obtain ⟨e, he, rfl⟩ := List.mem_map.mp hv
  have hg := ((forwardImpact g n).get?_eq_some e.1 e.2).mpr (List.mem_of_mem_filter he)
  exact (by norm_num [cut] : (0 : ℚ) ≤ cut).trans (impact_bounds g hg).1

variable {g} in
lemma reach_single (n s : Pod) : reach g [s] n = ((forwardImpact g n).get? s).getD 0 := by
  simp only [reach, List.mem_singleton]
  rw [OrderedMap.filter_key]
  cases (forwardImpact g n).get? s with
  | none => rfl
  | some v => simp

lemma explain_origin {seeds : List Pod} {n : Pod} (hs : n ∈ seeds) (hn : inDegree g n = 0) :
    1 ≤ explain g seeds n := by
  have h := reach_nonneg g seeds n
  simp only [explain, hs, hn, and_self, if_true, lt_irrefl, if_false]
  linarith

lemma mem_scores {seeds : List Pod} {s : Pod × ℚ} :
    s ∈ scores g seeds ↔ s.1 ∈ nodes g ∧ s.2 = explain g seeds s.1 ∧ 0 < s.2 := by
  simp only [scores, List.mem_filter, List.mem_map, decide_eq_true_eq]
  constructor
  · rintro ⟨⟨n, hn, rfl⟩, hp⟩
    exact ⟨hn, rfl, hp⟩
  · rintro ⟨hn, he, hp⟩
    exact ⟨⟨s.1, hn, by rw [← he]⟩, hp⟩

lemma ranked_ne_nil {sc : List (Pod × ℚ)} (onsetS : OrderedMap Pod ℚ) (h : sc ≠ []) :
    ranked sc onsetS ≠ [] := by
  have hl : 0 < sc.length := List.length_pos_iff.mpr h
  apply List.ne_nil_of_length_pos
  simp only [ranked, List.length_map, List.length_take, List.length_insertionSort]
  omega

lemma mem_ranked {sc : List (Pod × ℚ)} {onsetS : OrderedMap Pod ℚ} {c : RootCause Pod}
    (h : c ∈ ranked sc onsetS) : ∃ s ∈ sc, s.1 = c.pod := by
  obtain ⟨s, hs, rfl⟩ := List.mem_map.mp h
  exact ⟨s, (List.mem_insertionSort _).mp (List.mem_of_mem_take hs), rfl⟩

def onsetRank (onsetS : OrderedMap Pod ℚ) (p : Pod) : WithTop ℚ :=
  (onsetS.get? p).elim ⊤ fun t => (t : WithTop ℚ)

lemma head_ranked (sc : List (Pod × ℚ)) (onsetS : OrderedMap Pod ℚ) :
    (ranked sc onsetS).head?.map RootCause.pod = (sc.argmin (rankKey onsetS)).map Prod.fst := by
  rw [ranked, List.head?_map, List.head?_take, if_neg (by decide), head?_insertionSort_argmin, Option.map_map]
  rfl

lemma rankKey_lt {onsetS : OrderedMap Pod ℚ} {x y : Pod × ℚ} : rankKey onsetS x < rankKey onsetS y ↔
    y.2 < x.2 ∨ x.2 = y.2 ∧ onsetRank onsetS x.1 < onsetRank onsetS y.1 := by
  rw [rankKey, rankKey, Prod.Lex.toLex_lt_toLex]
  simp only [neg_lt_neg_iff, neg_inj, onsetRank]

lemma impact_reached {u v : Pod} {a : ArcData} (ha : ((u, v), a) ∈ g.entries)
    (hw : cut ≤ a.weight.val * decay) : v ∈ (forwardImpact g u).keys := by
  obtain ⟨r, hr⟩ := impactSearch_terminates g u
  rw [forwardImpact_eq g hr]
  have hc : (v, 1 * a.weight.val * decay) ∈ (impactSearch g).expand (u, 1) :=
    List.mem_map.mpr ⟨(v, a), (mem_outEdges g).mpr ha, rfl⟩
  apply (impactSearch g).loop_covers hc ?_ hr
  intro m hm
  rw [one_mul] at hm
  by_contra hk
  rw [← OrderedMap.get?_eq_none] at hk
  have hpos : 0 < a.weight.val * decay := lt_of_lt_of_le (by norm_num [cut]) hw
  simp [impactSearch, hk, not_lt.mpr hw, not_le.mpr hpos] at hm

lemma reach_pos {seeds : List Pod} {u v : Pod} {a : ArcData} (ha : ((u, v), a) ∈ g.entries)
    (hw : cut ≤ a.weight.val * decay) (hv : v ∈ seeds) : 0 < reach g seeds u := by
  obtain ⟨x, hx⟩ := ((forwardImpact g u).mem_keys v).mp (impact_reached g ha hw)
  apply List.sum_pos
  · intro y hy
    obtain ⟨e, he, rfl⟩ := List.mem_map.mp hy
    have hg := ((forwardImpact g u).get?_eq_some e.1 e.2).mpr (List.mem_of_mem_filter he)
    exact lt_of_lt_of_le (by norm_num [cut]) (impact_bounds g hg).1
  · apply List.ne_nil_of_mem (a := x)
    refine List.mem_map.mpr ⟨(v, x), List.mem_filter.mpr ⟨?_, by simpa using hv⟩, rfl⟩
    exact ((forwardImpact g u).get?_eq_some v x).mp hx

lemma explain_pos_of_reach {seeds : List Pod} {n : Pod} (h : 0 < reach g seeds n) : 0 < explain g seeds n := by
  have hp : (0 : ℚ) < upstreamPenalty := by norm_num [upstreamPenalty]
  simp only [explain]
  split_ifs <;> positivity

lemma scores_nodes_ne_nil {ι : Type} [LinearOrder ι] (rank : Pod → ι) (hne : g.entries ≠ [])
    (h : ∀ e ∈ g.entries, cut ≤ e.2.weight.val * decay ∨ rank e.1.1 < rank e.1.2) :
    scores g (nodes g) ≠ [] := by
  suffices hs : ∃ n ∈ nodes g, 0 < explain g (nodes g) n by
    obtain ⟨n, hn, hpos⟩ := hs
    have hs : (n, explain g (nodes g) n) ∈ scores g (nodes g) := (mem_scores g).mpr ⟨hn, rfl, hpos⟩
    exact List.ne_nil_of_mem hs
  -- a strong arc explains its head; without one every arc rises, and a lowest node explains itself
  by_cases hstrong : ∃ e ∈ g.entries, cut ≤ e.2.weight.val * decay
  · obtain ⟨⟨⟨u, v⟩, a⟩, he, hw⟩ := hstrong
    obtain ⟨hu, hv⟩ := node_of_entry he
    exact ⟨u, hu, explain_pos_of_reach g (reach_pos g he hw hv)⟩
  · obtain ⟨e, he⟩ := List.exists_mem_of_ne_nil _ hne
    cases hmin : (nodes g).argmin rank with
    | none =>
      have hn := (node_of_entry he).1
      rw [List.argmin_eq_none.mp hmin] at hn
      simp at hn
    | some n =>
      have hn := List.argmin_mem hmin
      refine ⟨n, hn, lt_of_lt_of_le one_pos (explain_origin g hn ?_)⟩
      apply (inDegree_eq_zero g).mpr
      rintro k hk rfl
      obtain ⟨d, hd, rfl⟩ := List.mem_map.mp hk
      have hlt := (h d hd).resolve_left fun hw => hstrong ⟨d, hd, hw⟩
      exact hlt.not_ge (List.le_of_mem_argmin (node_of_entry hd).1 hmin)

section Congruence

variable {seeds seeds' : List Pod} {onsetS onsetS' : OrderedMap Pod ℚ}

lemma mem_nodes_of_impact {root : Pod} {e : Pod × ℚ} (h : e ∈ (forwardImpact g root).entries) :
    e.1 ∈ nodes g := by
  obtain ⟨-, -, u, a, ha, -⟩ := impact_bounds g ((OrderedMap.get?_eq_some _ e.1 e.2).mpr h)
  exact (mem_nodes g).mpr ⟨_, List.mem_map_of_mem (f := Prod.fst) ha, Or.inr rfl⟩

lemma scores_congr (h : ∀ n ∈ nodes g, n ∈ seeds ↔ n ∈ seeds') : scores g seeds = scores g seeds' := by
  have hreach : ∀ n, reach g seeds n = reach g seeds' n := by
    intro n
    rw [reach, reach]
    congr 2
    apply List.filter_congr
    intro e he
    simpa using h e.1 (mem_nodes_of_impact g he)
  rw [scores, scores]
  congr 1
  apply List.map_congr_left
  intro n hn
  simp only [explain, hreach, h n hn]

lemma ranked_congr {sc : List (Pod × ℚ)} (h : ∀ s ∈ sc, onsetS.get? s.1 = onsetS'.get? s.1) :
    ranked sc onsetS = ranked sc onsetS' := by
  have hs : (sc.insertionSort fun a b => rankKey onsetS a ≤ rankKey onsetS b) =
      sc.insertionSort fun a b => rankKey onsetS' a ≤ rankKey onsetS' b := by
    have hid := List.map_insertionSort (r := fun a b => rankKey onsetS a ≤ rankKey onsetS b)
      (s := fun a b => rankKey onsetS' a ≤ rankKey onsetS' b) id sc ?_
    · simpa only [List.map_id] using hid
    · intro a ha b hb
      simp only [id, rankKey, h a ha, h b hb]
  rw [ranked, ranked, hs]
  apply List.map_congr_left
  intro s hmem
  rw [h s ((List.mem_insertionSort _).mp (List.mem_of_mem_take hmem))]

lemma rankRootCauses_congr (hs : ∀ n ∈ nodes g, n ∈ seeds ↔ n ∈ seeds')
    (ho : ∀ n ∈ nodes g, onsetS.get? n = onsetS'.get? n) :
    rankRootCauses g seeds onsetS = rankRootCauses g seeds' onsetS' := by
  have hseed : ∀ n ∈ nodes g, n ∈ seedSet g seeds ↔ n ∈ seedSet g seeds' := by
    have hnil : seeds.filter (· ∈ nodes g) = [] ↔ seeds'.filter (· ∈ nodes g) = [] := by
      simp only [List.filter_eq_nil_iff, decide_eq_true_eq]
      constructor
      · exact fun h n hn hg => h n ((hs n hg).mpr hn) hg
      · exact fun h n hn hg => h n ((hs n hg).mp hn) hg
    intro n hn
    simp only [seedSet, hnil]
    split_ifs
    · exact Iff.rfl
    · simp only [List.mem_filter, hs n hn]
  simp only [rankRootCauses, scores_congr g hseed]
  split_ifs
  · rfl
  · apply ranked_congr
    intro s hmem
    exact ho s.1 ((mem_scores g).mp hmem).1

end Congruence

end CausalEngine.Correlation
