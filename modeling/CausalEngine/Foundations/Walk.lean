import Mathlib.Tactic

/-! Walks in a graph whose arcs carry a factor. A walk has a number of hops and the product of the
factors along it. -/

namespace CausalEngine.Foundations

variable {ν γ : Type} [Monoid γ]

inductive Walk (arc : ν → ν → γ → Prop) (s : ν) : ℕ → ν → γ → Prop
  | start : Walk arc s 0 s 1
  | step {n u v p f} : Walk arc s n u p → arc u v f → Walk arc s (n + 1) v (p * f)

namespace Walk

variable {arc arc' : ν → ν → γ → Prop} {s u : ν} {n : ℕ} {p : γ}

lemma mono (h : ∀ u v f, arc u v f → arc' u v f) (hw : Walk arc s n u p) : Walk arc' s n u p := by
  induction hw with
  | start => exact .start
  | step _ ha ih => exact .step ih (h _ _ _ ha)

lemma congr (h : ∀ u v f, arc u v f ↔ arc' u v f) : Walk arc s n u p ↔ Walk arc' s n u p :=
  ⟨mono fun u v f => (h u v f).mp, mono fun u v f => (h u v f).mpr⟩

end Walk

end CausalEngine.Foundations
