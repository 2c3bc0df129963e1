import CausalEngine.Correlation.EdgeGates
import CausalEngine.Correlation.Routes

/-! When the choice of the symptoms cannot move the ranking: all arcs leave one pod. Any other graph has two
single symptoms that rank it differently. -/

namespace CausalEngine.Correlation

open Foundations DiGraph

variable {Pod : Type} [DecidableEq Pod]

namespace DiGraph

variable (g : DiGraph Pod)

def Audible : Prop := ∀ e ∈ g.entries, cut ≤ e.2.weight.val * decay ∧ e.1.1 ≠ e.1.2

def OneSource : Prop := ∀ e ∈ g.entries, ∀ e' ∈ g.entries, e.1.1 = e'.1.1

end DiGraph

variable {g : DiGraph Pod}

lemma scores_nodup (seeds : List Pod) : ((scores g seeds).map Prod.fst).Nodup := by
  have hmap : ((nodes g).map fun n => (n, explain g seeds n)).map Prod.fst = nodes g := by
    rw [List.map_map]
    exact List.map_id _
  have hsub := (List.filter_sublist (p := fun s : Pod × ℚ => decide (0 < s.2))
    (l := (nodes g).map fun n => (n, explain g seeds n))).map Prod.fst
  rw [hmap] at hsub
  exact hsub.nodup (nodup_eraseDups _)

lemma scores_alone {seeds : List Pod} {n : Pod} (hn : n ∈ nodes g) (hpos : 0 < explain g seeds n)
    (honly : ∀ m ∈ nodes g, 0 < explain g seeds m → m = n) : scores g seeds = [(n, explain g seeds n)] := by
  apply List.perm_singleton.mp
  apply (List.perm_ext_iff_of_nodup (List.Nodup.of_map _ (scores_nodup _)) (List.nodup_singleton _)).mpr
  intro s
  rw [mem_scores, List.mem_singleton]
  constructor
  · rintro ⟨hs, he, h₀⟩
    have hsn := honly s.1 hs (he ▸ h₀)
    exact Prod.ext hsn (hsn ▸ he)
  · rintro rfl
    exact ⟨hn, rfl, hpos⟩

lemma ranked_length (sc : List (Pod × ℚ)) (onsetS : OrderedMap Pod ℚ) :
    (ranked sc onsetS).length = min 3 sc.length := by
  simp only [ranked, List.length_map, List.length_take, List.length_insertionSort]

lemma rank_single {p : Pod} (hp : p ∈ nodes g) (onsetS : OrderedMap Pod ℚ) :
    rankRootCauses g [p] onsetS = ranked (scores g [p]) onsetS := by
  have hne : g.entries ≠ [] := by
    intro hnil
    simp [nodes, OrderedMap.keys, hnil] at hp
  have hseed : seedSet g [p] = [p] := by simp [seedSet, hp]
  rw [rankRootCauses, if_neg hne, hseed]

lemma seedSet_node (hne : g.entries ≠ []) (seeds : List Pod) : ∃ s ∈ seedSet g seeds, s ∈ nodes g := by
  simp only [seedSet]
  split_ifs with hnil
  · obtain ⟨e, he⟩ := List.exists_mem_of_ne_nil _ hne
    exact ⟨e.1.1, (node_of_entry he).1, (node_of_entry he).1⟩
  · obtain ⟨s, hs⟩ := List.exists_mem_of_ne_nil _ hnil
    exact ⟨s, hs, of_decide_eq_true (List.mem_filter.mp hs).2⟩

section Star

variable (ha : Audible g) (h : OneSource g)
include ha h

lemma star_origin {e : (Pod × Pod) × ArcData} (he : e ∈ g.entries) : inDegree g e.1.1 = 0 := by
  apply (inDegree_eq_zero g).mpr
  intro k hk hkd
  obtain ⟨d, hd, rfl⟩ := List.mem_map.mp hk
  exact (ha d hd).2 ((h d hd e he).trans hkd.symm)

lemma star_scores {e : (Pod × Pod) × ArcData} (he : e ∈ g.entries) (seeds : List Pod) :
    ∃ x, 0 < x ∧ scores g (seedSet g seeds) = [(e.1.1, x)] := by
  have hin := star_origin ha h he
  have hpos : 0 < explain g (seedSet g seeds) e.1.1 := by
    obtain ⟨s, hs, hn⟩ := seedSet_node (List.ne_nil_of_mem he) seeds
    by_cases hsource : s = e.1.1
    · exact one_pos.trans_le (explain_origin g (hsource ▸ hs) hin)
    · obtain ⟨k, hk, hsk⟩ := (mem_nodes g).mp hn
      obtain ⟨⟨⟨u, v⟩, a⟩, hd, rfl⟩ := List.mem_map.mp hk
      obtain rfl : u = e.1.1 := h _ hd e he
      obtain rfl : s = v := hsk.resolve_left hsource
      exact explain_pos_of_reach g (reach_pos g hd (ha _ hd).1 hs)
  refine ⟨_, hpos, scores_alone (node_of_entry he).1 hpos ?_⟩
  intro n hn hscore
  by_contra hother
  have hout : outEdges g n = [] := by
    apply List.eq_nil_iff_forall_not_mem.mpr
    intro o ho
    exact hother (h _ ((mem_outEdges g).mp ho) e he)
  have hreach : reach g (seedSet g seeds) n = 0 := by simp [reach, impact_isolated g hout]
  have hstruck : 0 < inDegree g n := by
    apply Nat.pos_of_ne_zero
    intro h₀
    obtain ⟨k, hk, hnk⟩ := (mem_nodes g).mp hn
    obtain ⟨d, hd, rfl⟩ := List.mem_map.mp hk
    rcases hnk with hnk | hnk
    · exact hother (hnk.trans (h d hd e he))
    · exact (inDegree_eq_zero g).mp h₀ _ hk hnk.symm
  rw [explain, hreach] at hscore
  simp [hstruck, hstruck.ne'] at hscore

lemma star_ranking (seeds seeds' : List Pod) (onsetS : OrderedMap Pod ℚ) :
    rankRootCauses g seeds onsetS = rankRootCauses g seeds' onsetS := by
  by_cases hnil : g.entries = []
  · rw [rankRootCauses, rankRootCauses, if_pos hnil, if_pos hnil]
  · obtain ⟨e, he⟩ := List.exists_mem_of_ne_nil _ hnil
    obtain ⟨x, hx, hsc⟩ := star_scores ha h he seeds
    obtain ⟨y, hy, hsc'⟩ := star_scores ha h he seeds'
    rw [rankRootCauses, rankRootCauses, if_neg hnil, if_neg hnil, hsc, hsc']
    simp [ranked, hx.ne', hy.ne']

end Star

omit [DecidableEq Pod] in
lemma Route.le_pow {p q : Pod} {k : ℕ} {w : ℚ} (h : Route g p k q w) : 0 ≤ w ∧ w ≤ decay ^ k := by
  induction h with
  | start => simp
  | @step k u v w f _ ha ih =>
    obtain ⟨a, -, rfl⟩ := ha
    obtain ⟨h₀, h₁⟩ := decayed_bounds (w := 1) zero_le_one a.weight
    rw [one_mul] at h₀ h₁
    rw [one_mul] at h₁
    rw [pow_succ]
    exact ⟨mul_nonneg ih.1 h₀, mul_le_mul ih.2 h₁ h₀ (by norm_num [decay])⟩

section Steered

variable {onsetS : OrderedMap Pod ℚ} (ha : Audible g)
  (hsame : ∀ p q, rankRootCauses g [p] onsetS = rankRootCauses g [q] onsetS)
include ha

lemma top_not_symptom (hcause : ∀ n ∈ nodes g, 0 < inDegree g n) {p : Pod} (hp : p ∈ nodes g)
    (htop : (rankRootCauses g [p] onsetS).head?.map RootCause.pod = some p) : False := by
  rw [rank_single hp, head_ranked] at htop
  obtain ⟨s, hs, rfl⟩ := Option.map_eq_some_iff.mp htop
  obtain ⟨-, hscore, hpos⟩ := (mem_scores g).mp (List.argmin_mem hs)
  have hexplain : ∀ n ∈ nodes g, explain g [s.1] n = ((forwardImpact g n).get? s.1).getD 0 * upstreamPenalty := by
    intro n hn
    simp [explain, hcause n hn, (hcause n hn).ne', reach_single]
  rw [hexplain _ hp] at hscore
  cases himpact : (forwardImpact g s.1).get? s.1 with
  | none =>
    rw [hscore, himpact] at hpos
    simp at hpos
  | some v =>
    obtain ⟨-, k, hroute⟩ := route_of_impact g himpact
    rw [himpact, Option.getD_some] at hscore
    cases hroute with
    | @step _ q _ w f hw hf =>
      obtain ⟨a, hq, rfl⟩ := hf
      obtain ⟨hcut, hne⟩ := ha _ hq
      have hf : 0 < a.weight.val * decay := lt_of_lt_of_le (by norm_num [cut]) hcut
      have hlow : w ≤ decay := by
        cases k with
        | zero =>
          cases hw
          exact (hne rfl).elim
        | succ k =>
          exact (Route.le_pow hw).2.trans
            (pow_le_of_le_one (by norm_num [decay]) (by norm_num [decay]) k.succ_ne_zero)
      have hdirect : Route g q 1 s.1 (a.weight.val * decay) := by
        have hstep := Walk.step (.start : Route g q 0 q 1) ⟨a, hq, rfl⟩
        rwa [one_mul] at hstep
      obtain ⟨x, hx, hfx⟩ := forwardImpact_covers g hdirect hcut
      have hqn := (node_of_entry hq).1
      have hqs := hexplain q hqn
      rw [hx, Option.getD_some] at hqs
      have hlt : s.2 < x * upstreamPenalty := by
        rw [hscore]
        apply mul_lt_mul_of_pos_right _ (by norm_num [upstreamPenalty])
        calc w * (a.weight.val * decay) ≤ decay * (a.weight.val * decay) := mul_le_mul_of_nonneg_right hlow hf.le
          _ < a.weight.val * decay := mul_lt_of_lt_one_left hf (by norm_num [decay])
          _ ≤ x := hfx
      have hmem : (q, x * upstreamPenalty) ∈ scores g [s.1] := (mem_scores g).mpr ⟨hqn, hqs.symm, hpos.trans hlt⟩
      exact List.not_lt_of_mem_argmin hmem hs (rankKey_lt.mpr (Or.inl hlt))

lemma source_scored {e : (Pod × Pod) × ArcData} (he : e ∈ g.entries) :
    (e.1.1, explain g [e.1.2] e.1.1) ∈ scores g [e.1.2] :=
  (mem_scores g).mpr ⟨(node_of_entry he).1, rfl,
    explain_pos_of_reach g (reach_pos g he (ha e he).1 (List.mem_singleton_self _))⟩

include hsame

lemma origin_sources {n : Pod} (hn : n ∈ nodes g) (hin : inDegree g n = 0) : ∀ e ∈ g.entries, e.1.1 = n := by
  have hself : 0 < explain g [n] n := one_pos.trans_le (explain_origin g (List.mem_singleton_self _) hin)
  have halone : scores g [n] = [(n, explain g [n] n)] := by
    apply scores_alone hn hself
    intro m _ hscore
    rcases explain_pos g hscore with ⟨hm, -⟩ | ⟨s, hs, k, v, hroute, hv⟩
    · exact List.mem_singleton.mp hm
    · obtain rfl := List.mem_singleton.mp hs
      obtain ⟨x, hx, -⟩ := forwardImpact_covers g hroute hv
      obtain ⟨-, -, u, a, hu, -⟩ := impact_bounds g hx
      exact ((inDegree_eq_zero g).mp hin _ (List.mem_map_of_mem (f := Prod.fst) hu) rfl).elim
  intro e he
  have hv := (node_of_entry he).2
  have hr := hsame n e.1.2
  rw [rank_single hn, rank_single hv, halone] at hr
  have hlen := congrArg List.length hr
  rw [ranked_length, ranked_length, List.length_singleton] at hlen
  obtain ⟨s, hs⟩ : ∃ s, scores g [e.1.2] = [s] := List.length_eq_one_iff.mp (by omega)
  have hmem := source_scored ha he
  rw [hs, List.mem_singleton] at hmem
  rw [hs, ← hmem] at hr
  have hpod := congrArg (List.map RootCause.pod) hr
  simpa [ranked] using hpod.symm

lemma steered_sources : OneSource g := by
  by_cases horigin : ∃ n ∈ nodes g, inDegree g n = 0
  · obtain ⟨n, hn, hin⟩ := horigin
    have hsrc := origin_sources ha hsame hn hin
    intro e he e' he'
    rw [hsrc e he, hsrc e' he']
  · intro e he
    have hcause : ∀ n ∈ nodes g, 0 < inDegree g n :=
      fun n hn => Nat.pos_of_ne_zero fun h₀ => horigin ⟨n, hn, h₀⟩
    have hv := (node_of_entry he).2
    cases htop : (rankRootCauses g [e.1.2] onsetS).head? with
    | none =>
      rw [List.head?_eq_none_iff, rank_single hv] at htop
      exact (ranked_ne_nil onsetS (List.ne_nil_of_mem (source_scored ha he)) htop).elim
    | some c =>
      have hc : c ∈ ranked (scores g [e.1.2]) onsetS := rank_single hv onsetS ▸ List.mem_of_head? htop
      obtain ⟨s, hs, hsc⟩ := mem_ranked hc
      have hself : (rankRootCauses g [c.pod] onsetS).head?.map RootCause.pod = some c.pod := by
        rw [hsame c.pod e.1.2, htop]
        rfl
      exact (top_not_symptom ha hcause (hsc ▸ ((mem_scores g).mp hs).1) hself).elim

end Steered

namespace PassInput

variable {Pod : Type} [LinearOrder Pod] (S : Stats) (i : PassInput Pod)

def withBreach (breach : List Pod) : PassInput Pod := { i with sloBreach := breach }

def OneOrigin : Prop := ∀ p q p' q', i.Admits S p q → i.Admits S p' q' → p = p'

lemma audible_pass : Audible (buildGraph (i.edges S)) := by
  intro e he
  obtain ⟨d, hd, rfl⟩ := List.mem_map.mp (OrderedMap.mem_entries_ofList he)
  refine ⟨?_, i.edge_distinct S hd⟩
  have hr := edge_strong hd
  have habs := le_abs_self d.r.val
  simp only [Edge.arc, Coef.abs, cut, decay]
  linarith

lemma oneOrigin_iff : i.OneOrigin S ↔ OneSource (buildGraph (i.edges S)) := by
  simp only [OneOrigin, admits_iff]
  constructor
  · intro h e he e' he'
    obtain ⟨d, hd, rfl⟩ := List.mem_map.mp (OrderedMap.mem_entries_ofList he)
    obtain ⟨d', hd', rfl⟩ := List.mem_map.mp (OrderedMap.mem_entries_ofList he')
    exact h _ _ _ _ ⟨d, hd, rfl, rfl⟩ ⟨d', hd', rfl, rfl⟩
  · rintro h _ _ _ _ ⟨d, hd, rfl, rfl⟩ ⟨d', hd', rfl, rfl⟩
    have hentry : ∀ e ∈ i.edges S, ∃ x ∈ (buildGraph (i.edges S)).entries, x.1.1 = e.src := by
      intro e he
      obtain ⟨x, hx, hk⟩ := List.mem_map.mp (mem_keys_buildGraph.mpr ⟨e, he, rfl⟩)
      exact ⟨x, hx, by rw [hk]⟩
    obtain ⟨x, hx, hs⟩ := hentry d hd
    obtain ⟨x', hx', hs'⟩ := hentry d' hd'
    rw [← hs, ← hs', h x hx x' hx']

lemma passGraph_withBreach (breach : List Pod) :
    let ranking := rankRootCauses (buildGraph (i.edges S)) (i.withBreach breach).seeds i.onsetS
    (i.withBreach breach).passGraph S =
      { i.passGraph S with
        rootCauseRanking := ranking
        blastRadius := ranking.head?.elim [] fun c => blastRadius (buildGraph (i.edges S)) c.pod } := rfl

lemma passGraph_neutral (h : i.OneOrigin S) (breach breach' : List Pod) :
    (i.withBreach breach).passGraph S = (i.withBreach breach').passGraph S := by
  have hrank := star_ranking (i.audible_pass S) ((i.oneOrigin_iff S).mp h) (i.withBreach breach).seeds
    (i.withBreach breach').seeds i.onsetS
  simp only [passGraph_withBreach]
  rw [hrank]

theorem single_breach_neutral_iff : (∀ p q, ((i.withBreach [p]).passGraph S).rootCauseRanking =
      ((i.withBreach [q]).passGraph S).rootCauseRanking) ↔ i.OneOrigin S := by
  constructor
  · intro h
    have hsame : ∀ p q, rankRootCauses (buildGraph (i.edges S)) [p] i.onsetS =
        rankRootCauses (buildGraph (i.edges S)) [q] i.onsetS := h
    exact (i.oneOrigin_iff S).mpr (steered_sources (i.audible_pass S) hsame)
  · intro h p q
    rw [i.passGraph_neutral S h [p] [q]]

end PassInput

end CausalEngine.Correlation
