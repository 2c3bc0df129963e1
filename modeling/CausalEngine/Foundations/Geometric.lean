import Mathlib.Algebra.Order.Archimedean.Basic
import Mathlib.Tactic

/-! Geometric decay above a floor: a value that loses a fixed share at each step, but never falls below its
floor, stays under the floor or the decayed bound, and the bound passes below any finite set of levels. -/

namespace CausalEngine.Foundations

variable {K : Type} [Field K] [LinearOrder K] [IsStrictOrderedRing K]

lemma decayed_floor {b v c q : K} (hq : 0 ≤ q) (hq₁ : q ≤ 1) (hc : 0 ≤ c) (h : v ≤ max b c) :
    max b (v * q) ≤ max b (c * q) := by
  apply max_le (le_max_left _ _)
  calc v * q ≤ max b c * q := mul_le_mul_of_nonneg_right h hq
    _ = max (b * q) (c * q) := max_mul_of_nonneg _ _ hq
    _ ≤ max b (c * q) := ?_
  apply max_le _ (le_max_right _ _)
  by_cases hb : 0 ≤ b
  · exact le_max_of_le_left (mul_le_of_le_one_right hb hq₁)
  · exact le_max_of_le_right ((mul_nonpos_of_nonpos_of_nonneg (not_le.mp hb).le hq).trans (mul_nonneg hc hq))

omit [IsStrictOrderedRing K] in
lemma exists_upper_bound (l : List K) : ∃ c, 0 ≤ c ∧ ∀ v ∈ l, v ≤ c := by
  induction l with
  | nil => exact ⟨0, le_rfl, by simp⟩
  | cons a l ih =>
    obtain ⟨c, hc, hl⟩ := ih
    refine ⟨max a c, le_max_of_le_right hc, ?_⟩
    intro v hv
    rcases List.mem_cons.mp hv with rfl | hv
    · exact le_max_left _ _
    · exact le_max_of_le_right (hl v hv)

variable [Archimedean K]

lemma exists_decayed_below {c q : K} (hc : 0 ≤ c) (hq : 0 ≤ q) (hq₁ : q < 1) (levels : List K) :
    ∃ n, ∀ k, n ≤ k → ∀ f ∈ levels, 0 < f → c * q ^ k < f := by
  induction levels with
  | nil => exact ⟨0, by simp⟩
  | cons a levels ih =>
    obtain ⟨n, hn⟩ := ih
    have hone : ∃ m, 0 < a → c * q ^ m < a := by
      by_cases ha : 0 < a
      · obtain ⟨m, hm⟩ := exists_pow_lt_of_lt_one (div_pos ha (by positivity : 0 < c + 1)) hq₁
        refine ⟨m, fun _ => ?_⟩
        calc c * q ^ m ≤ (c + 1) * q ^ m := mul_le_mul_of_nonneg_right (by linarith) (pow_nonneg hq m)
          _ < a := by rwa [mul_comm, ← lt_div_iff₀ (by positivity)]
      · exact ⟨0, fun h => (ha h).elim⟩
    obtain ⟨m, hm⟩ := hone
    refine ⟨max m n, ?_⟩
    intro k hk f hf hpos
    rcases List.mem_cons.mp hf with rfl | hf
    · have hpow : q ^ k ≤ q ^ m := pow_le_pow_of_le_one hq hq₁.le (by omega)
      exact (mul_le_mul_of_nonneg_left hpow hc).trans_lt (hm hpos)
    · exact hn k (by omega) f hf hpos

end CausalEngine.Foundations
