import CausalEngine.Correlation.EdgeGates
import Mathlib.Logic.Relation

/-! Source attribution as a relation between pods. Every source edge leads to a pod that writes less, so
the source edges have no cycle, and a pair that has one takes nothing else. -/

namespace CausalEngine.Correlation

open Foundations

variable {Pod : Type} [LinearOrder Pod]

namespace PassInput

variable (S : Stats) (i : PassInput Pod)

def Attributes (g : PassGraph Pod) (src dst : Pod) : Prop :=
  ∃ e ∈ g.edges, e.isSource ∧ e.src = src ∧ e.dst = dst

lemma mem_sourceEdges_of_edges {e : Edge Pod} (he : e ∈ i.edges S) (hs : e.isSource) : e ∈ i.sourceEdges S := by
  rcases (i.mem_edges S).mp he with he | ⟨he, -⟩
  · exact he
  · obtain ⟨_, _, _, _, _, hpe⟩ := (i.mem_psiEdges S).mp he
    exact (i.psiEdge_not_source S hpe hs).elim

lemma writeAct_lt_of_sourceEdge {w v : Pod} {e : Edge Pod} (h : i.sourceEdge S w v = some e) :
    i.writeAct v < i.writeAct w := by
  obtain ⟨-, -, -, -, hlt, -⟩ := i.sourceEdge_spec S h
  exact hlt

lemma sourceEdge_ends {w v : Pod} {e : Edge Pod} (h : i.sourceEdge S w v = some e) : e.src = w ∧ e.dst = v := by
  obtain ⟨-, -, -, -, -, hs, hd, -⟩ := i.sourceEdge_spec S h
  exact ⟨hs, hd⟩

lemma writeAct_lt_of_attributes {src dst : Pod} (h : Attributes (i.passGraph S) src dst) :
    i.writeAct dst < i.writeAct src := by
  obtain ⟨e, he, hs, rfl, rfl⟩ := h
  exact i.writeAct_lt_of_sourceEdge S ((i.mem_sourceEdges S).mp (i.mem_sourceEdges_of_edges S he hs))

lemma writeAct_lt_of_chain {src dst : Pod} (h : Relation.TransGen (Attributes (i.passGraph S)) src dst) :
    i.writeAct dst < i.writeAct src := by
  induction h with
  | single h => exact i.writeAct_lt_of_attributes S h
  | tail _ h ih => exact (i.writeAct_lt_of_attributes S h).trans ih

lemma sourceEdge_asymm {w v : Pod} {e : Edge Pod} (h : i.sourceEdge S w v = some e) : i.sourceEdge S v w = none := by
  by_contra hn
  obtain ⟨e', he'⟩ := Option.ne_none_iff_exists'.mp hn
  exact lt_asymm (i.writeAct_lt_of_sourceEdge S h) (i.writeAct_lt_of_sourceEdge S he')

lemma sourceEdge_mem {w v : Pod} {e : Edge Pod} (h : i.sourceEdge S w v = some e) : e ∈ i.sourceEdges S := by
  obtain ⟨rfl, rfl⟩ := i.sourceEdge_ends S h
  exact (i.mem_sourceEdges S).mpr h

lemma sourceEdge_wins {w v : Pod} {e e' : Edge Pod} (h : i.sourceEdge S w v = some e) (he' : e' ∈ i.edges S)
    (hp : e'.pair = s(w, v)) : e' = e := by
  have he := i.sourceEdge_mem S h
  obtain ⟨rfl, rfl⟩ := i.sourceEdge_ends S h
  rcases (i.mem_edges S).mp he' with hs | ⟨-, hno⟩
  · exact i.sourceEdges_unique S hs he hp
  · exact (hno e he hp.symm).elim

end PassInput

open PassInput

/-- The write-evidenced edges have no cycle, one orientation of a pair at most passes the source tests,
and the edge that does is the only one of its pair in the result. -/
theorem source_attribution (S : Stats) (i : PassInput Pod) (g : PassGraph Pod) (h : runPass S i = some g) :
    (∀ p, ¬ Relation.TransGen (Attributes g) p p) ∧
    ∀ w v e, i.sourceEdge S w v = some e →
      i.sourceEdge S v w = none ∧ e ∈ g.edges ∧ ∀ e' ∈ g.edges, e'.pair = s(w, v) → e' = e := by
  obtain rfl := runPass_eq h
  constructor
  · intro p hp
    exact lt_irrefl _ (i.writeAct_lt_of_chain S hp)
  · intro w v e he
    refine ⟨i.sourceEdge_asymm S he, ?_, ?_⟩
    · exact (i.mem_edges S).mpr (Or.inl (i.sourceEdge_mem S he))
    · exact fun e' he' hp => i.sourceEdge_wins S he he' hp

theorem source_attribution_storm : ∃ g e, runPass momentStats stormInput = some g ∧
    stormInput.sourceEdge momentStats "loader" "victim" = some e ∧ e ∈ g.edges ∧
    ¬ Relation.TransGen (Attributes g) "victim" "victim" := by
  have h : runPass momentStats stormInput = some (stormInput.passGraph momentStats) :=
    runPass_ok (by decide +kernel)
  obtain ⟨hacyclic, hwins⟩ := source_attribution momentStats stormInput _ h
  obtain ⟨e, he⟩ := Option.isSome_iff_exists.mp
    (by decide +kernel : (stormInput.sourceEdge momentStats "loader" "victim").isSome = true)
  exact ⟨_, e, h, he, (hwins _ _ e he).2.1, hacyclic _⟩

end CausalEngine.Correlation
