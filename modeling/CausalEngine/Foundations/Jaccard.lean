import Mathlib.Data.Finset.SymmDiff
import Mathlib.Data.Rat.Defs
import Mathlib.Order.SymmDiff
import Mathlib.Tactic

/-! The Jaccard similarity of finite sets. One minus the similarity is a distance: the number of
elements in exactly one set, relative to the number of elements in either. -/

namespace CausalEngine.Foundations

open Finset
open scoped symmDiff

variable {α : Type} [DecidableEq α] (a b c : Finset α)

def jaccard : ℚ := if a = ∅ ∧ b = ∅ then 1 else (#(a ∩ b) : ℚ) / #(a ∪ b)

lemma jaccard_comm : jaccard a b = jaccard b a := by
  simp only [jaccard, inter_comm a, union_comm a, and_comm (a := a = ∅)]

@[simp] lemma jaccard_self : jaccard a a = 1 := by
  simp only [jaccard, and_self, inter_self, union_self]
  split_ifs with h
  · rfl
  · exact div_self (Nat.cast_ne_zero.mpr (card_ne_zero.mpr (nonempty_iff_ne_empty.mpr h)))

lemma card_inter_add_card_symmDiff : #(a ∩ b) + #(a ∆ b) = #(a ∪ b) := by
  have hd : Disjoint (a ∩ b) (a ∆ b) := (disjoint_symmDiff_inf a b).symm
  rw [← card_union_of_disjoint hd, union_comm]
  exact congrArg card (symmDiff_sup_inf a b)

lemma card_symmDiff_triangle : #(a ∆ c) ≤ #(a ∆ b) + #(b ∆ c) :=
  (card_le_card (symmDiff_triangle a b c)).trans (card_union_le _ _)

lemma card_le_card_add_symmDiff : #a ≤ #b + #(a ∆ b) := by
  have h : a ⊆ b ∪ a ∆ b := by
    intro x hx
    by_cases hb : x ∈ b
    · exact mem_union_left _ hb
    · exact mem_union_right _ (mem_symmDiff.mpr (Or.inl ⟨hx, hb⟩))
  exact (card_le_card h).trans (card_union_le _ _)

lemma one_sub_jaccard : 1 - jaccard a b = (2 * #(a ∆ b) : ℚ) / (#a + #b + #(a ∆ b)) := by
  have hunion := card_inter_add_card_symmDiff a b
  have hcard := card_union_add_card_inter a b
  have hsum : (#a + #b + #(a ∆ b) : ℚ) = 2 * #(a ∪ b) := by
    have : #a + #b + #(a ∆ b) = 2 * #(a ∪ b) := by omega
    exact_mod_cast this
  unfold jaccard
  split_ifs with h
  · simp [h.1, h.2]
  · have hpos : (0 : ℚ) < #(a ∪ b) := by
      have hne : (a ∪ b).Nonempty := nonempty_iff_ne_empty.mpr fun he => h (union_eq_empty.mp he)
      exact_mod_cast card_pos.mpr hne
    have hinter : (#(a ∩ b) : ℚ) = #(a ∪ b) - #(a ∆ b) := by
      rw [← hunion]
      push_cast
      ring
    rw [hsum, hinter]
    field_simp
    ring

lemma jaccard_le_one : jaccard a b ≤ 1 := by
  have h : (0 : ℚ) ≤ 1 - jaccard a b := by
    rw [one_sub_jaccard]
    positivity
  linarith

lemma jaccard_singleton {x y : α} (h : x ≠ y) : jaccard {x} {y} = 0 := by simp [jaccard, h]

lemma ratio_mono {s u v : ℚ} (hs : 0 ≤ s) (hu : 0 ≤ u) (h : u ≤ v) : 2 * u / (s + u) ≤ 2 * v / (s + v) := by
  rcases hs.eq_or_lt with rfl | hs
  · rcases hu.eq_or_lt with rfl | hu
    · rw [mul_zero, zero_div]
      positivity
    · rw [zero_add, zero_add, mul_div_assoc, mul_div_assoc, div_self hu.ne', div_self (hu.trans_le h).ne']
  · rw [div_le_div_iff₀ (by linarith) (by linarith)]
    nlinarith [mul_le_mul_of_nonneg_left h hs.le]

lemma jaccard_triangle : jaccard a b + jaccard b c ≤ 1 + jaccard a c := by
  suffices h : 1 - jaccard a c ≤ (1 - jaccard a b) + (1 - jaccard b c) by linarith
  have htri : (#(a ∆ c) : ℚ) ≤ #(a ∆ b) + #(b ∆ c) := by exact_mod_cast card_symmDiff_triangle a b c
  have hb : (#b : ℚ) ≤ #c + #(b ∆ c) := by exact_mod_cast card_le_card_add_symmDiff b c
  have hb' : (#b : ℚ) ≤ #a + #(a ∆ b) := by
    rw [symmDiff_comm]
    exact_mod_cast card_le_card_add_symmDiff b a
  simp only [one_sub_jaccard]
  have hdiv : ∀ {x s t : ℚ}, 0 ≤ x → x ≤ t → t ≤ s → 2 * x / s ≤ 2 * x / t := by
    intro x s t hx hxt hts
    rcases (hx.trans hxt).eq_or_lt with rfl | ht
    · rw [le_antisymm hxt hx, mul_zero, zero_div, zero_div]
    · exact div_le_div_of_nonneg_left (by linarith) ht hts
  calc (2 * #(a ∆ c) : ℚ) / (#a + #c + #(a ∆ c))
      ≤ 2 * (#(a ∆ b) + #(b ∆ c)) / (#a + #c + (#(a ∆ b) + #(b ∆ c))) :=
        ratio_mono (by positivity) (by positivity) htri
    _ = 2 * #(a ∆ b) / (#a + #c + (#(a ∆ b) + #(b ∆ c))) +
          2 * #(b ∆ c) / (#a + #c + (#(a ∆ b) + #(b ∆ c))) := by rw [mul_add, add_div]
    _ ≤ 2 * #(a ∆ b) / (#a + #b + #(a ∆ b)) + 2 * #(b ∆ c) / (#b + #c + #(b ∆ c)) := by
        apply add_le_add
        · refine hdiv (by positivity) ?_ (by linarith)
          linarith [(Nat.cast_nonneg #a : (0 : ℚ) ≤ #a), (Nat.cast_nonneg #b : (0 : ℚ) ≤ #b)]
        · refine hdiv (by positivity) ?_ (by linarith)
          linarith [(Nat.cast_nonneg #b : (0 : ℚ) ≤ #b), (Nat.cast_nonneg #c : (0 : ℚ) ≤ #c)]

example : jaccard {1, 2} {2, 3} = 1 / 3 ∧ jaccard (∅ : Finset ℕ) ∅ = 1 := by decide +kernel

end CausalEngine.Foundations
