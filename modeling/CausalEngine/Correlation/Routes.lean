import CausalEngine.Foundations.LabelSearch
import CausalEngine.Foundations.Walk
import CausalEngine.Correlation.ImpactFacts

/-! Both searches read as statements about the routes of the graph: walks whose factors are the decayed
weights of their arcs. -/

namespace CausalEngine.Correlation

open Foundations DiGraph

variable {Pod : Type} [DecidableEq Pod] (g : DiGraph Pod)

def DiGraph.factor (u v : Pod) (f : ℚ) : Prop := ∃ a, ((u, v), a) ∈ g.entries ∧ f = a.weight.val * decay

abbrev Route (root : Pod) : ℕ → Pod → ℚ → Prop := Walk (DiGraph.factor g) root

omit [DecidableEq Pod] in
lemma decayed_inherits {w : ℚ} (a : Weight) (h : cut ≤ w * a.val * decay) : cut ≤ w := by
  have hc : (0 : ℚ) < cut := by norm_num [cut]
  have hd : (0 : ℚ) ≤ decay := by norm_num [decay]
  have hw : 0 ≤ w := by
    by_contra hn
    have hneg : w * a.val * decay ≤ 0 :=
      mul_nonpos_of_nonpos_of_nonneg (mul_nonpos_of_nonpos_of_nonneg (not_le.mp hn).le a.property.1) hd
    linarith
  have hb := (decayed_bounds hw a).2
  have hle : w * decay ≤ w := mul_le_of_le_one_right hw (by norm_num [decay])
  linarith

omit [DecidableEq Pod] in
lemma decayed_mono {v w : ℚ} (h : v ≤ w) (a : Weight) : v * a.val * decay ≤ w * a.val * decay := by
  have hd : (0 : ℚ) ≤ decay := by norm_num [decay]
  exact mul_le_mul_of_nonneg_right (mul_le_mul_of_nonneg_right h a.property.1) hd

lemma impactSearch_improving : (impactSearch g).Improving (cut ≤ ·) := by
  refine ⟨⟨fun v w hvw hv => hv.trans hvw, ?_, ?_⟩, ?_⟩
  · intro y c hc hg
    obtain ⟨o, _, rfl⟩ := List.mem_map.mp hc
    exact decayed_inherits o.2.weight hg
  · intro u b b' hb c hc
    obtain ⟨o, ho, rfl⟩ := List.mem_map.mp hc
    exact ⟨_, List.mem_map.mpr ⟨o, ho, rfl⟩, rfl, decayed_mono hb o.2.weight⟩
  · intro m c
    simp only [impactSearch, Bool.not_eq_true', Bool.or_eq_false_iff, decide_eq_false_iff_not, not_lt, not_le]
    apply and_congr_right
    intro hc
    cases m.get? c.1 with
    | none => simpa using lt_of_lt_of_le (by norm_num [cut]) hc
    | some v => simp

lemma blastSearch_firstVisit : (blastSearch g).FirstVisit Prod.fst (cut ≤ ·) := by
  refine ⟨⟨fun v w hvw hv => hv.trans hvw, ?_, ?_⟩, ?_⟩
  · intro y c hc hg
    obtain ⟨o, _, rfl⟩ := List.mem_map.mp hc
    exact decayed_inherits o.2.weight hg
  · intro u b b' hb c hc
    obtain ⟨o, ho, rfl⟩ := List.mem_map.mp hc
    exact ⟨_, List.mem_map.mpr ⟨o, ho, rfl⟩, rfl, decayed_mono hb o.2.weight⟩
  · intro m c
    simp [blastSearch]

section Carried

variable {root n : Pod} {k : ℕ}

lemma carries_impact {w : ℚ} : (impactSearch g).Carries (root, 1) k (n, w) ↔ Route g root k n w := by
  constructor
  · intro h
    generalize hc : (n, w) = c at h
    induction h generalizing n w with
    | start =>
      obtain ⟨rfl, rfl⟩ := Prod.mk.inj hc
      exact .start
    | @step k y c hy hyc ih =>
      subst hc
      obtain ⟨o, ho, heq⟩ := List.mem_map.mp hyc
      obtain ⟨rfl, rfl⟩ := Prod.mk.inj heq
      rw [mul_assoc]
      exact (ih rfl).step ⟨o.2, (mem_outEdges g).mp ho, rfl⟩
  · intro h
    induction h with
    | start => exact .start
    | @step k u v p f hw ha ih =>
      obtain ⟨a, ha, rfl⟩ := ha
      rw [← mul_assoc]
      exact ih.step (List.mem_map.mpr ⟨(v, a), (mem_outEdges g).mpr ha, rfl⟩)

lemma route_of_blast {b : ℚ × ℤ} (h : (blastSearch g).Carries (root, (1, 0)) k (n, b)) :
    Route g root k n b.1 := by
  generalize hc : (n, b) = c at h
  induction h generalizing n b with
  | start =>
    obtain ⟨rfl, rfl⟩ := Prod.mk.inj hc
    exact .start
  | @step k y c hy hyc ih =>
    subst hc
    obtain ⟨o, ho, heq⟩ := List.mem_map.mp hyc
    obtain ⟨rfl, rfl⟩ := Prod.mk.inj heq
    rw [mul_assoc]
    exact (ih rfl).step ⟨o.2, (mem_outEdges g).mp ho, rfl⟩

lemma blast_of_route {w : ℚ} (h : Route g root k n w) :
    ∃ lag, (blastSearch g).Carries (root, (1, 0)) k (n, (w, lag)) := by
  induction h with
  | start => exact ⟨0, .start⟩
  | @step k u v p f hw ha ih =>
    obtain ⟨a, ha, rfl⟩ := ha
    obtain ⟨lag, hl⟩ := ih
    rw [← mul_assoc]
    exact ⟨_, hl.step (List.mem_map.mpr ⟨(v, a), (mem_outEdges g).mpr ha, rfl⟩)⟩

end Carried

lemma forwardImpact_greatest (root n : Pod) (v : ℚ) : (forwardImpact g root).get? n = some v ↔
    IsGreatest {w | cut ≤ w ∧ ∃ k, Route g root (k + 1) n w} v := by
  obtain ⟨r, hr⟩ := impactSearch_terminates g root
  rw [forwardImpact_eq g hr, (impactSearch_improving g).greatest hr n v]
  simp only [carries_impact]

lemma forwardImpact_covers {root n : Pod} {k : ℕ} {w : ℚ} (hw : Route g root (k + 1) n w) (hc : cut ≤ w) :
    ∃ v, (forwardImpact g root).get? n = some v ∧ w ≤ v := by
  obtain ⟨r, hr⟩ := impactSearch_terminates g root
  rw [forwardImpact_eq g hr]
  exact (impactSearch_improving g).covers hr ((carries_impact g).mpr hw) hc

lemma route_of_impact {root n : Pod} {v : ℚ} (h : (forwardImpact g root).get? n = some v) :
    cut ≤ v ∧ ∃ k, Route g root (k + 1) n v :=
  ((forwardImpact_greatest g root n v).mp h).1

lemma explain_pos {seeds : List Pod} {n : Pod} (h : 0 < explain g seeds n) :
    n ∈ seeds ∧ inDegree g n = 0 ∨ ∃ s ∈ seeds, ∃ k v, Route g n (k + 1) s v ∧ cut ≤ v := by
  by_cases ho : n ∈ seeds ∧ inDegree g n = 0
  · exact Or.inl ho
  have hr : 0 < reach g seeds n := by
    simp only [explain, if_neg ho] at h
    split_ifs at h
    · exact (pos_iff_pos_of_mul_pos h).mpr (by norm_num [upstreamPenalty])
    · exact h
  obtain ⟨v, hv, -⟩ := List.exists_mem_ne_zero_of_sum_ne_zero hr.ne'
  obtain ⟨e, he, rfl⟩ := List.mem_map.mp hv
  obtain ⟨he, hs⟩ := List.mem_filter.mp he
  obtain ⟨hc, k, hk⟩ := route_of_impact g ((OrderedMap.get?_eq_some _ e.1 e.2).mpr he)
  exact Or.inr ⟨e.1, by simpa using hs, k, e.2, hk, hc⟩

end CausalEngine.Correlation
