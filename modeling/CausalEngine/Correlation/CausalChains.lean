import CausalEngine.Correlation.SameWeights
import Mathlib.Data.List.Permutation

/-! Ranking on a causal chain with one symptom at its end. The origin explains the symptom over the whole
chain; the last hop explains it over one arc, at half the weight for being explained itself. -/

namespace CausalEngine.Correlation

open Foundations DiGraph

variable {Pod : Type}

def Linked : Pod → List (Edge Pod) → Pod → Prop
  | p, [], q => p = q
  | p, e :: C, q => e.src = p ∧ Linked e.dst C q

def carry (C : List (Edge Pod)) : ℚ := (C.map fun e => e.r.abs.val * decay).prod

structure CausalChain (origin symptom : Pod) (C : List (Edge Pod)) : Prop where
  linked : Linked origin C symptom
  hop : C ≠ []
  distinct : (origin :: C.map Edge.dst).Nodup
  strong : ∀ e ∈ C, 6 / 10 ≤ e.r.val

/-- One hop, or two of which the first carries more than the penalty leaves to a pod that has a cause; if it
carries just as much, the onsets decide, and after them the order of insertion. -/
def OriginWins [DecidableEq Pod] (E : List (Edge Pod)) (onsetS : OrderedMap Pod ℚ) : List (Edge Pod) → Prop
  | [_] => True
  | [e, f] => upstreamPenalty < e.r.abs.val * decay ∨ upstreamPenalty = e.r.abs.val * decay ∧
      (onsetRank onsetS e.src < onsetRank onsetS f.src ∨
        onsetRank onsetS e.src = onsetRank onsetS f.src ∧ E.head?.map Edge.src = some e.src)
  | _ => False

section Chains

variable {p q : Pod} {A B C : List (Edge Pod)}

lemma linked_append : Linked p (A ++ B) q ↔ ∃ m, Linked p A m ∧ Linked m B q := by
  induction A generalizing p with
  | nil => simp [Linked]
  | cons e A ih =>
    simp only [List.cons_append, Linked, ih]
    constructor
    · rintro ⟨he, m, hA, hB⟩
      exact ⟨m, ⟨he, hA⟩, hB⟩
    · rintro ⟨m, ⟨he, hA⟩, hB⟩
      exact ⟨he, m, hA, hB⟩

lemma Linked.pods (h : Linked p C q) : C.map Edge.src ++ [q] = p :: C.map Edge.dst := by
  induction C generalizing p with
  | nil => simpa [Linked] using h.symm
  | cons e C ih =>
    obtain ⟨rfl, h⟩ := h
    rw [List.map_cons, List.cons_append, ih h, List.map_cons]

lemma carry_cons (e : Edge Pod) (C : List (Edge Pod)) : carry (e :: C) = e.r.abs.val * decay * carry C := by
  rw [carry, List.map_cons, List.prod_cons, carry]

lemma carry_append (A B : List (Edge Pod)) : carry (A ++ B) = carry A * carry B := by
  rw [carry, List.map_append, List.prod_append, carry, carry]

lemma hop_bounds (e : Edge Pod) : 0 ≤ e.r.abs.val * decay ∧ e.r.abs.val * decay ≤ decay := by
  have h := decayed_bounds (w := 1) zero_le_one e.r.abs
  simpa only [one_mul] using h

lemma carry_bounds (C : List (Edge Pod)) : 0 ≤ carry C ∧ carry C ≤ decay ^ C.length := by
  induction C with
  | nil => simp [carry]
  | cons e C ih =>
    obtain ⟨h₀, h₁⟩ := hop_bounds e
    rw [carry_cons, List.length_cons, pow_succ']
    exact ⟨mul_nonneg h₀ ih.1, mul_le_mul h₁ ih.2 ih.1 (by norm_num [decay])⟩

lemma carry_le_suffix (A B : List (Edge Pod)) : carry (A ++ B) ≤ carry B := by
  obtain ⟨-, hA⟩ := carry_bounds A
  have hone : carry A ≤ 1 := hA.trans (pow_le_one₀ (by norm_num [decay]) (by norm_num [decay]))
  rw [carry_append]
  exact mul_le_of_le_one_left (carry_bounds B).1 hone

end Chains

variable [DecidableEq Pod] {origin symptom : Pod} {C E : List (Edge Pod)}

namespace CausalChain

variable (h : CausalChain origin symptom C)
include h

omit [DecidableEq Pod] in
lemma sources : (C.map Edge.src).Nodup ∧ symptom ∉ C.map Edge.src := by
  have hnd := h.distinct
  rw [← h.linked.pods, List.nodup_append] at hnd
  exact ⟨hnd.1, fun hs => hnd.2.2 _ hs symptom (by simp) rfl⟩

omit [DecidableEq Pod] in
lemma symptom_struck : symptom ∈ C.map Edge.dst := by
  have hmem : symptom ∈ origin :: C.map Edge.dst := by
    rw [← h.linked.pods]
    simp
  rcases List.mem_cons.mp hmem with rfl | hmem
  · cases hC : C with
    | nil => exact (h.hop hC).elim
    | cons e D =>
      have hsrc := h.sources.2
      have hlink := h.linked
      rw [hC] at hsrc hlink
      exact (hsrc (by simp [hlink.1])).elim
  · exact hmem

omit [DecidableEq Pod] in
lemma symptom_ne : symptom ≠ origin := by
  rintro rfl
  exact (List.nodup_cons.mp h.distinct).1 h.symptom_struck

variable (hE : E.Perm C)
include hE

lemma entries : (buildGraph E).entries = E.map Edge.arc := by
  rw [buildGraph, OrderedMap.entries_ofList]
  rw [List.map_map]
  have hsrc : (E.map Edge.src).Nodup := (hE.map Edge.src).nodup_iff.mpr h.sources.1
  refine List.Nodup.of_map Prod.fst ?_
  rwa [List.map_map]

lemma factor_iff {u v : Pod} {f : ℚ} : DiGraph.factor (buildGraph E) u v f ↔
    ∃ e ∈ C, e.src = u ∧ e.dst = v ∧ f = e.r.abs.val * decay := by
  simp only [DiGraph.factor, h.entries hE, List.mem_map, hE.mem_iff, Edge.arc, Prod.mk.injEq]
  constructor
  · rintro ⟨a, ⟨e, he, ⟨hs, hd⟩, rfl⟩, rfl⟩
    exact ⟨e, he, hs, hd, rfl⟩
  · rintro ⟨e, he, hs, hd, rfl⟩
    exact ⟨_, ⟨e, he, ⟨hs, hd⟩, rfl⟩, rfl⟩

lemma mem_nodes {n : Pod} : n ∈ nodes (buildGraph E) ↔ n = origin ∨ n ∈ C.map Edge.dst := by
  rw [mem_nodes_buildGraph, ← List.mem_cons, ← h.linked.pods]
  simp only [hE.mem_iff, List.mem_append, List.mem_map, List.mem_singleton]
  constructor
  · rintro ⟨e, he, rfl | rfl⟩
    · exact Or.inl ⟨e, he, rfl⟩
    · have hmem : e.dst ∈ C.map Edge.src ++ [symptom] := by
        rw [h.linked.pods]
        exact List.mem_cons_of_mem _ (List.mem_map_of_mem he)
      simpa using hmem
  · rintro (⟨e, he, rfl⟩ | rfl)
    · exact ⟨e, he, Or.inl rfl⟩
    · obtain ⟨e, he, hd⟩ := List.mem_map.mp h.symptom_struck
      exact ⟨e, he, Or.inr hd.symm⟩

lemma inDegree_eq_zero {n : Pod} : inDegree (buildGraph E) n = 0 ↔ n ∉ C.map Edge.dst := by
  rw [DiGraph.inDegree_eq_zero, OrderedMap.keys, h.entries hE, List.map_map]
  simp [Edge.arc, hE.mem_iff]

section Routes

variable {n m : Pod} {A D : List (Edge Pod)}

lemma route_linked (hA : ∀ e ∈ A, e ∈ C) (hl : Linked n A m) : Route (buildGraph E) n A.length m (carry A) := by
  induction A using List.reverseRecOn generalizing m with
  | nil =>
    obtain rfl : n = m := hl
    exact Walk.start
  | append_singleton A e ih =>
    obtain ⟨u, hu, rfl, hm⟩ := linked_append.mp hl
    obtain rfl : e.dst = m := hm
    have hroute := ih (fun f hf => hA f (List.mem_append_left _ hf)) hu
    have hcarry : carry (A ++ [e]) = carry A * (e.r.abs.val * decay) := by
      rw [carry_append]
      simp [carry]
    rw [hcarry, List.length_append]
    exact hroute.step ((h.factor_iff hE).mpr ⟨e, hA e (by simp), rfl, rfl, rfl⟩)

lemma linked_route {k : ℕ} {w : ℚ} (hD : ∀ e ∈ D, e ∈ C) (hl : Linked n D symptom)
    (hr : Route (buildGraph E) n k m w) : ∃ A B, D = A ++ B ∧ Linked m B symptom ∧ k = A.length ∧ w = carry A := by
  induction hr with
  | start => exact ⟨[], D, rfl, hl, rfl, by simp [carry]⟩
  | @step k u v w f _ ha ih =>
    obtain ⟨A, B, rfl, hu, rfl, rfl⟩ := ih
    obtain ⟨e, he, rfl, rfl, rfl⟩ := (h.factor_iff hE).mp ha
    cases B with
    | nil =>
      obtain rfl : e.src = symptom := hu
      exact (h.sources.2 (List.mem_map_of_mem he)).elim
    | cons f B =>
      obtain rfl : f = e := List.inj_on_of_nodup_map h.sources.1 (hD f (by simp)) he hu.1
      refine ⟨A ++ [f], B, by simp, hu.2, by simp, ?_⟩
      rw [carry_append]
      simp [carry]

lemma route_iff {k : ℕ} {w : ℚ} (hD : ∀ e ∈ D, e ∈ C) (hl : Linked n D symptom) :
    Route (buildGraph E) n k symptom w ↔ k = D.length ∧ w = carry D := by
  constructor
  · intro hr
    obtain ⟨A, B, rfl, hB, rfl, rfl⟩ := h.linked_route hE hD hl hr
    cases B with
    | nil => simp
    | cons f B => exact (h.sources.2 (List.mem_map.mpr ⟨f, hD f (by simp), hB.1⟩)).elim
  · rintro ⟨rfl, rfl⟩
    exact h.route_linked hE hD hl

lemma impact_chain (hD : ∀ e ∈ D, e ∈ C) (hl : Linked n D symptom) (hne : D ≠ []) (hc : cut ≤ carry D) :
    (forwardImpact (buildGraph E) n).get? symptom = some (carry D) := by
  obtain ⟨k, hk⟩ := Nat.exists_eq_succ_of_ne_zero (mt List.length_eq_zero_iff.mp hne)
  rw [forwardImpact_some]
  refine ⟨⟨⟨k, (h.route_iff hE hD hl).mpr ⟨hk.symm, rfl⟩⟩, ?_⟩, hc⟩
  rintro w ⟨j, hj⟩
  exact ((h.route_iff hE hD hl).mp hj).2.le

lemma explain_origin (hc : cut ≤ carry C) : explain (buildGraph E) [symptom] origin = carry C := by
  have hin : inDegree (buildGraph E) origin = 0 := (h.inDegree_eq_zero hE).mpr (List.nodup_cons.mp h.distinct).1
  have himpact := h.impact_chain hE (fun e he => he) h.linked h.hop hc
  simp [explain, hin, reach_single, himpact, Ne.symm h.symptom_ne]

lemma explain_hop {B : List (Edge Pod)} (hAB : C = A ++ B) (hA : A ≠ []) (hB : B ≠ []) (hl : Linked n B symptom)
    (hc : cut ≤ carry C) : explain (buildGraph E) [symptom] n = carry B * upstreamPenalty := by
  have hmem : n ∈ C.map Edge.dst := by
    obtain ⟨m, hm, hmB⟩ := linked_append.mp (hAB ▸ h.linked)
    obtain ⟨f, B, rfl⟩ := List.exists_cons_of_ne_nil hB
    obtain rfl : m = n := hmB.1.symm.trans hl.1
    obtain ⟨A, e, rfl⟩ := List.eq_nil_or_concat A |>.resolve_left hA
    rw [List.concat_eq_append] at hm hAB
    obtain ⟨u, -, -, he⟩ := linked_append.mp hm
    obtain rfl : e.dst = m := he
    rw [hAB]
    simp
  have hin : 0 < inDegree (buildGraph E) n := Nat.pos_of_ne_zero fun h₀ => (h.inDegree_eq_zero hE).mp h₀ hmem
  have hBC : ∀ e ∈ B, e ∈ C := fun e he => hAB ▸ List.mem_append_right _ he
  have himpact := h.impact_chain hE hBC hl hB (hc.trans (hAB ▸ carry_le_suffix A B))
  simp [explain, hin, hin.ne', reach_single, himpact]

lemma explain_symptom : explain (buildGraph E) [symptom] symptom = 0 := by
  have hin : 0 < inDegree (buildGraph E) symptom :=
    Nat.pos_of_ne_zero fun h₀ => (h.inDegree_eq_zero hE).mp h₀ h.symptom_struck
  have himpact : (forwardImpact (buildGraph E) symptom).get? symptom = none := by
    rw [forwardImpact_none]
    intro k w hw
    have hk := ((h.route_iff hE (D := []) (by simp) rfl).mp hw).1
    simp at hk
  simp [explain, hin, hin.ne', reach_single, himpact]

end Routes

end CausalChain

section Ranking

omit [DecidableEq Pod] in
lemma argmin_pair (key : Pod × ℚ → ℚ ×ₗ WithTop ℚ) (x y : Pod × ℚ) (hne : y.1 ≠ x.1) :
    (([x, y].argmin key).map Prod.fst = some x.1 ↔ ¬key y < key x) ∧
      (([y, x].argmin key).map Prod.fst = some x.1 ↔ key x < key y) := by
  simp only [List.argmin_cons, List.argmin_nil]
  constructor
  · by_cases hlt : key y < key x
    · simp [hlt, hne]
    · simp [hlt]
  · by_cases hlt : key x < key y
    · simp [hlt]
    · simp [hlt, hne]

namespace CausalChain

variable (h : CausalChain origin symptom C) (hE : E.Perm C) (hc : cut ≤ carry C) (onsetS : OrderedMap Pod ℚ)
include h hE

lemma top_eq : (rankRootCauses (buildGraph E) [symptom] onsetS).head?.map RootCause.pod =
    ((scores (buildGraph E) [symptom]).argmin (rankKey onsetS)).map Prod.fst := by
  have hne : (buildGraph E).entries ≠ [] := by
    apply buildGraph_entries_ne_nil
    rintro rfl
    exact h.hop (List.nil_perm.mp hE)
  have hseed : seedSet (buildGraph E) [symptom] = [symptom] := by
    have hnode : symptom ∈ nodes (buildGraph E) := (h.mem_nodes hE).mpr (Or.inr h.symptom_struck)
    simp [seedSet, hnode]
  rw [rankRootCauses, if_neg hne, hseed, head_ranked]

include hc

lemma origin_scored : (origin, carry C) ∈ scores (buildGraph E) [symptom] :=
  (mem_scores _).mpr ⟨(h.mem_nodes hE).mpr (Or.inl rfl), (h.explain_origin hE hc).symm,
    lt_of_lt_of_le (by norm_num [cut]) hc⟩

lemma one_hop {e : Edge Pod} (hC : C = [e]) : ((scores (buildGraph E) [symptom]).argmin (rankKey onsetS)).map Prod.fst =
    some origin := by
  cases ha : (scores (buildGraph E) [symptom]).argmin (rankKey onsetS) with
  | none =>
    have hmem := h.origin_scored hE hc
    rw [List.argmin_eq_none.mp ha] at hmem
    simp at hmem
  | some s =>
    obtain ⟨hn, hs, hpos⟩ := (mem_scores _).mp (List.argmin_mem ha)
    have hlink := h.linked
    rw [hC] at hlink
    obtain rfl : e.dst = symptom := hlink.2
    rw [h.mem_nodes hE, hC] at hn
    have hdst : s.1 ≠ e.dst := by
      intro heq
      rw [hs, heq, h.explain_symptom hE] at hpos
      exact lt_irrefl _ hpos
    simpa [hdst] using hn

lemma scores_two {e f : Edge Pod} (hC : C = [e, f]) :
    let x := (origin, carry [e, f])
    let y := (f.src, upstreamPenalty * carry [f])
    E = [e, f] ∧ scores (buildGraph E) [symptom] = [x, y] ∨ E = [f, e] ∧ scores (buildGraph E) [symptom] = [y, x] := by
  subst hC
  obtain ⟨hs, hef, hd⟩ := h.linked
  obtain rfl : f.dst = symptom := hd
  have hdistinct := h.distinct
  simp only [List.map_cons, List.map_nil, List.nodup_cons, List.mem_cons, List.not_mem_nil, or_false, not_or,
    List.nodup_nil, not_false_eq_true, and_true] at hdistinct
  obtain ⟨⟨h₀₁, h₀₂⟩, h₁₂⟩ := hdistinct
  have hs₀ := h.explain_origin hE hc
  have hs₁ : explain (buildGraph E) [f.dst] e.dst = upstreamPenalty * carry [f] := by
    rw [mul_comm]
    exact h.explain_hop hE (A := [e]) (B := [f]) rfl (by simp) (by simp) ⟨hef, rfl⟩ hc
  have hs₂ := h.explain_symptom hE
  have hpos₀ : 0 < carry [e, f] := lt_of_lt_of_le (by norm_num [cut]) hc
  have hpos₁ : 0 < upstreamPenalty * carry [f] :=
    mul_pos (by norm_num [upstreamPenalty]) (hpos₀.trans_le (carry_le_suffix [e] [f]))
  have hkeys : (buildGraph E).keys = E.map fun e => (e.src, e.dst) := by
    rw [OrderedMap.keys, h.entries hE, List.map_map]
    rfl
  rcases List.perm_pair.mp hE with rfl | rfl
  · have hnodes : nodes (buildGraph [e, f]) = [origin, e.dst, f.dst] := by
      simp [nodes, hkeys, List.eraseDups_cons, hs, hef, Ne.symm h₀₁, Ne.symm h₀₂, Ne.symm h₁₂]
    refine Or.inl ⟨rfl, ?_⟩
    simp [scores, hnodes, hs₀, hs₁, hs₂, hpos₀, hpos₁, hef]
  · have hnodes : nodes (buildGraph [f, e]) = [e.dst, f.dst, origin] := by
      simp [nodes, hkeys, List.eraseDups_cons, hs, hef, h₀₁, h₀₂, Ne.symm h₁₂]
    refine Or.inr ⟨rfl, ?_⟩
    simp [scores, hnodes, hs₀, hs₁, hs₂, hpos₀, hpos₁, hef]

lemma two_hops {e f : Edge Pod} (hC : C = [e, f]) :
    ((scores (buildGraph E) [symptom]).argmin (rankKey onsetS)).map Prod.fst = some origin ↔
      OriginWins E onsetS [e, f] := by
  have hcarry : carry [e, f] = e.r.abs.val * decay * carry [f] := carry_cons e [f]
  have hpos : 0 < carry [f] := by
    have hcut : 0 < carry C := lt_of_lt_of_le (by norm_num [cut]) hc
    rw [hC] at hcut
    exact hcut.trans_le (carry_le_suffix [e] [f])
  have hsrc : e.src = origin := by
    have hlink := h.linked
    rw [hC] at hlink
    exact hlink.1
  have hne : f.src ≠ origin := by
    have hnd := h.sources.1
    rw [hC] at hnd
    rw [← hsrc]
    intro heq
    simp [heq] at hnd
  obtain ⟨hfirst, hlast⟩ := argmin_pair (rankKey onsetS) (origin, carry [e, f])
    (f.src, upstreamPenalty * carry [f]) hne
  -- the common weight of the last hop cancels
  have hlt : ∀ {a b : ℚ}, a * carry [f] < b * carry [f] ↔ a < b := mul_lt_mul_iff_left₀ hpos
  have heq : ∀ {a b : ℚ}, a * carry [f] = b * carry [f] ↔ a = b := mul_left_inj' hpos.ne'
  rcases h.scores_two hE hc hC with ⟨rfl, hs⟩ | ⟨rfl, hs⟩
  · rw [hs, hfirst, rankKey_lt, hcarry]
    simp only [hlt, heq, OriginWins, hsrc, List.head?_cons, Option.map_some, and_true, not_or, not_lt, not_and,
      ← le_iff_lt_or_eq]
    constructor
    · rintro ⟨hle, htie⟩
      exact hle.lt_or_eq.imp_right fun he => ⟨he, htie he⟩
    · rintro (hless | ⟨he, htie⟩)
      · exact ⟨hless.le, fun he => (hless.ne he).elim⟩
      · exact ⟨he.le, fun _ => htie⟩
  · rw [hs, hlast, rankKey_lt, hcarry]
    simp only [hlt, heq, eq_comm (b := upstreamPenalty)]
    simp only [OriginWins, hsrc, List.head?_cons, Option.map_some, Option.some.injEq, hne, and_false, or_false]

lemma far_hops {e f g : Edge Pod} {D : List (Edge Pod)} (hC : C = e :: f :: g :: D) :
    ((scores (buildGraph E) [symptom]).argmin (rankKey onsetS)).map Prod.fst ≠ some origin := by
  intro htop
  obtain ⟨s, hs, rfl⟩ := Option.map_eq_some_iff.mp htop
  obtain ⟨-, hscore, -⟩ := (mem_scores _).mp (List.argmin_mem hs)
  rw [h.explain_origin hE hc] at hscore
  -- the pod before the symptom keeps half of what its one hop carries
  obtain ⟨A, l, hA⟩ : ∃ A l, C = A ++ [l] := ⟨C.dropLast, C.getLast h.hop, (List.dropLast_append_getLast h.hop).symm⟩
  have hlen : 2 ≤ A.length := by
    have hCA := congrArg List.length (hC.symm.trans hA)
    simp only [List.length_cons, List.length_append, List.length_nil] at hCA
    omega
  have hlink : Linked l.src [l] symptom := by
    obtain ⟨m, -, hm⟩ := linked_append.mp (hA ▸ h.linked)
    exact ⟨rfl, hm.2⟩
  have hAne : A ≠ [] := List.ne_nil_of_length_pos (by omega)
  have hlast := h.explain_hop hE hA hAne (by simp) hlink hc
  have hpos : 0 < carry [l] := by
    have hcut : 0 < carry C := lt_of_lt_of_le (by norm_num [cut]) hc
    rw [hA] at hcut
    exact hcut.trans_le (carry_le_suffix A [l])
  have hnode : l.src ∈ nodes (buildGraph E) := by
    rw [mem_nodes_buildGraph]
    exact ⟨l, hE.mem_iff.mpr (hA ▸ by simp), Or.inl rfl⟩
  have hmem : (l.src, carry [l] * upstreamPenalty) ∈ scores (buildGraph E) [symptom] :=
    (mem_scores _).mpr ⟨hnode, hlast.symm, mul_pos hpos (by norm_num [upstreamPenalty])⟩
  have hfar : carry C < carry [l] * upstreamPenalty := by
    have hdecay : carry A ≤ decay ^ 2 :=
      (carry_bounds A).2.trans (pow_le_pow_of_le_one (by norm_num [decay]) (by norm_num [decay]) hlen)
    have hless : carry A < upstreamPenalty := hdecay.trans_lt (by norm_num [decay, upstreamPenalty])
    rw [hA, carry_append, mul_comm (carry [l])]
    exact mul_lt_mul_of_pos_right hless hpos
  have hle := List.le_of_mem_argmin hmem hs
  exact hle.not_gt (rankKey_lt.mpr (Or.inl (by rw [hscore]; exact hfar)))

end CausalChain

end Ranking

theorem origin_ranked_first_iff (h : CausalChain origin symptom C) (hE : E.Perm C) (hc : cut ≤ carry C)
    (onsetS : OrderedMap Pod ℚ) :
    (rankRootCauses (buildGraph E) [symptom] onsetS).head?.map RootCause.pod = some origin ↔
      OriginWins E onsetS C := by
  rw [h.top_eq hE]
  match hC : C, h, hE, hc with
  | [e], h, hE, hc => exact iff_of_true (h.one_hop hE hc onsetS rfl) trivial
  | [e, f], h, hE, hc => exact h.two_hops hE hc onsetS rfl
  | e :: f :: g :: D, h, hE, hc => exact iff_of_false (h.far_hops hE hc onsetS rfl) id

def chainOf (first second : ℕ) : List (Edge String) :=
  [⟨"loader", "database", .tenths first, 30, [.stat, .pvc]⟩, ⟨"database", "reader", .tenths second, 5, [.stat, .ebpf]⟩]

theorem origin_ranked_first_iff_loud :
    (rankRootCauses (buildGraph (chainOf 9 8)) ["reader"] .empty).head?.map RootCause.pod = some "loader" := by
  have h : CausalChain "loader" "reader" (chainOf 9 8) := by
    refine ⟨⟨rfl, rfl, rfl⟩, by simp [chainOf], by decide, ?_⟩
    decide +kernel
  refine (origin_ranked_first_iff h (List.Perm.refl _) (by decide +kernel) .empty).mpr (Or.inl ?_)
  decide +kernel

theorem middle_ranked_first : CausalChain "loader" "reader" (chainOf 6 6) ∧ cut ≤ carry (chainOf 6 6) ∧
    (rankRootCauses (buildGraph (chainOf 6 6)) ["reader"] .empty).head?.map RootCause.pod = some "database" := by
  refine ⟨⟨⟨rfl, rfl, rfl⟩, by simp [chainOf], by decide, ?_⟩, by decide +kernel, by decide +kernel⟩
  decide +kernel

end CausalEngine.Correlation
