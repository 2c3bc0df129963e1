import Mathlib.Algebra.BigOperators.Ring.List
import Mathlib.Algebra.Order.BigOperators.Group.List
import Mathlib.Algebra.Order.Field.Basic
import Mathlib.Tactic

/-! The differences between the members of a list, summed over all ordered pairs. Over a sorted list the sum
is linear in the members, each weighted with its rank. -/

namespace CausalEngine.Foundations

section Sums

variable {K : Type} [Field K]

def rankSum (r : ℕ) (x : List K) : K := ((x.zipIdx r).map fun p => (p.2 : K) * p.1).sum

lemma rankSum_cons (r : ℕ) (a : K) (x : List K) : rankSum r (a :: x) = r * a + rankSum (r + 1) x := by
  simp [rankSum]

lemma rankSum_succ (r : ℕ) (x : List K) : rankSum (r + 1) x = rankSum r x + x.sum := by
  induction x generalizing r with
  | nil => simp [rankSum]
  | cons a x ih =>
    rw [rankSum_cons, rankSum_cons, ih, List.sum_cons]
    push_cast
    ring

variable [LinearOrder K]

def gapsTo (a : K) (x : List K) : K := (x.map fun b => |a - b|).sum

def pairGaps (x : List K) : K := (x.map fun a => gapsTo a x).sum

lemma pairGaps_perm {x y : List K} (h : x.Perm y) : pairGaps x = pairGaps y := by
  have hgap : ∀ a, gapsTo a x = gapsTo a y := fun a => (h.map _).sum_eq
  simp only [pairGaps, hgap]
  exact (h.map _).sum_eq

end Sums

variable {K : Type} [Field K] [LinearOrder K] [IsStrictOrderedRing K]

lemma gapsTo_nonneg (a : K) (x : List K) : 0 ≤ gapsTo a x :=
  List.sum_nonneg (by simp)

lemma pairGaps_nonneg (x : List K) : 0 ≤ pairGaps x := by
  apply List.sum_nonneg
  simp only [List.mem_map]
  rintro _ ⟨a, -, rfl⟩
  exact gapsTo_nonneg a x

lemma pairGaps_cons (a : K) (x : List K) : pairGaps (a :: x) = pairGaps x + 2 * gapsTo a x := by
  have hsplit : ∀ b, gapsTo b (a :: x) = |a - b| + gapsTo b x := by
    intro b
    rw [gapsTo, List.map_cons, List.sum_cons, abs_sub_comm]
    rfl
  rw [pairGaps, List.map_cons, List.sum_cons, hsplit, sub_self, abs_zero, zero_add]
  simp only [hsplit, List.sum_map_add]
  rw [← gapsTo, ← pairGaps]
  ring

lemma gapsTo_least {a : K} {x : List K} (h : ∀ b ∈ x, a ≤ b) : gapsTo a x = x.sum - x.length * a := by
  induction x with
  | nil => simp [gapsTo]
  | cons b x ih =>
    have hb : |a - b| = b - a := by rw [abs_sub_comm, abs_of_nonneg (sub_nonneg.mpr (h b List.mem_cons_self))]
    have hx := ih fun c hc => h c (List.mem_cons_of_mem b hc)
    rw [gapsTo] at hx
    rw [gapsTo, List.map_cons, List.sum_cons, hx, hb, List.sum_cons, List.length_cons]
    push_cast
    ring

lemma pairGaps_sorted {x : List K} (h : x.Pairwise (· ≤ ·)) :
    pairGaps x = 4 * rankSum 1 x - 2 * (x.length + 1) * x.sum := by
  induction x with
  | nil => simp [pairGaps, rankSum]
  | cons a x ih =>
    obtain ⟨ha, hx⟩ := List.pairwise_cons.mp h
    rw [pairGaps_cons, ih hx, gapsTo_least ha, rankSum_cons, rankSum_succ 1, List.sum_cons, List.length_cons]
    push_cast
    ring

lemma gapsTo_le {a : K} {x : List K} (ha : 0 ≤ a) (hx : ∀ b ∈ x, 0 ≤ b) : gapsTo a x ≤ x.sum + x.length * a := by
  induction x with
  | nil => simp [gapsTo]
  | cons b x ih =>
    have hb₀ := hx b List.mem_cons_self
    have hb : |a - b| ≤ b + a := abs_sub_le_of_nonneg_of_le ha (by linarith) hb₀ (by linarith)
    have hs := ih fun c hc => hx c (List.mem_cons_of_mem b hc)
    rw [gapsTo] at hs
    rw [gapsTo, List.map_cons, List.sum_cons, List.sum_cons, List.length_cons]
    push_cast
    linarith

lemma pairGaps_le {x : List K} (hx : ∀ b ∈ x, 0 ≤ b) : pairGaps x ≤ 2 * (x.length - 1) * x.sum := by
  induction x with
  | nil => simp [pairGaps]
  | cons a x ih =>
    have hx' := fun b hb => hx b (List.mem_cons_of_mem a hb)
    have hg := gapsTo_le (hx a List.mem_cons_self) hx'
    have hs := List.sum_nonneg hx'
    have ih := ih hx'
    rw [pairGaps_cons, List.sum_cons, List.length_cons]
    push_cast
    linarith

lemma pairGaps_eq_zero {x : List K} : pairGaps x = 0 ↔ ∀ a ∈ x, ∀ b ∈ x, a = b := by
  constructor
  · intro h a ha b hb
    have hgap : gapsTo a x = 0 := by
      apply List.all_zero_of_le_zero_le_of_sum_eq_zero ?_ h (List.mem_map_of_mem ha)
      simp only [List.mem_map]
      rintro _ ⟨c, -, rfl⟩
      exact gapsTo_nonneg c x
    have hab : |a - b| = 0 :=
      List.all_zero_of_le_zero_le_of_sum_eq_zero (by simp) hgap (List.mem_map_of_mem hb)
    exact sub_eq_zero.mp (abs_eq_zero.mp hab)
  · intro h
    apply List.sum_eq_zero
    simp only [List.mem_map]
    rintro _ ⟨a, ha, rfl⟩
    apply List.sum_eq_zero
    simp only [List.mem_map]
    rintro _ ⟨b, hb, rfl⟩
    rw [h a ha b hb, sub_self, abs_zero]

lemma pairGaps_scale {c : K} (hc : 0 ≤ c) (x : List K) : pairGaps (x.map (c * ·)) = c * pairGaps x := by
  have hgap : ∀ a, gapsTo (c * a) (x.map (c * ·)) = c * gapsTo a x := by
    intro a
    rw [gapsTo, gapsTo, List.map_map, ← List.sum_map_mul_left]
    congr 1
    apply List.map_congr_left
    intro b _
    rw [Function.comp_apply, ← mul_sub, abs_mul, abs_of_nonneg hc]
  rw [pairGaps, List.map_map, pairGaps, ← List.sum_map_mul_left]
  exact congrArg List.sum (List.map_congr_left fun a _ => hgap a)

end CausalEngine.Foundations
