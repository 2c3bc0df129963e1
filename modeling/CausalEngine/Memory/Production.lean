import CausalEngine.Correlation.EdgeGates
import CausalEngine.Memory.Observe

/-! In production memory is given the graph of a pass together with the vectors and the witness that the
pass had. The edges of such an observation are strong. -/

namespace CausalEngine.Memory

open Foundations Correlation PassInput

def FromPass (S : Stats) (o : Observation) : Prop :=
  ∃ i, runPass S i = some o.graph ∧ o.vectors = i.vectors ∧ o.witness = some i.witness

variable {S : Stats} {o : Observation}

lemma strong_of_fromPass (h : FromPass S o) : ∀ e ∈ o.graph.edges, 1 / 2 ≤ e.r.val := by
  obtain ⟨i, hi, -, -⟩ := h
  intro e he
  rw [runPass_eq hi] at he
  exact edge_strong he

def passObservation (i : PassInput String) : Observation :=
  ⟨i.passGraph momentStats, i.vectors, some i.witness, 10, 10⟩

end CausalEngine.Memory
