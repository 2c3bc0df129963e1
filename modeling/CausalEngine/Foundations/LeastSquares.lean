import Mathlib.Algebra.Order.BigOperators.Ring.Finset
import Mathlib.Tactic

/-! Least squares over equally spaced points. A line that is read with noise is fitted by a line whose slope is off by
no more than the spread of the noise allows. -/

namespace CausalEngine.Foundations

open Finset

variable {K : Type} [Field K]

def avg (n : ℕ) (f : ℕ → K) : K := (∑ i ∈ range n, f i) / n

def cov (n : ℕ) (f g : ℕ → K) : K := ∑ i ∈ range n, (f i - avg n f) * (g i - avg n g)

section Bilinear

variable (n : ℕ) (f g h : ℕ → K)

lemma cov_comm : cov n f g = cov n g f := by
  simp only [cov, mul_comm]

lemma avg_add : avg n (fun i => f i + g i) = avg n f + avg n g := by
  rw [avg, sum_add_distrib, add_div, avg, avg]

lemma avg_mul (c : K) : avg n (fun i => c * f i) = c * avg n f := by
  rw [avg, ← mul_sum, mul_div_assoc, avg]

lemma cov_add : cov n f (fun i => g i + h i) = cov n f g + cov n f h := by
  rw [cov, avg_add, cov, cov, ← sum_add_distrib]
  apply sum_congr rfl
  intro i _
  ring

lemma cov_mul (c : K) : cov n f (fun i => c * g i) = c * cov n f g := by
  rw [cov, avg_mul, cov, mul_sum]
  apply sum_congr rfl
  intro i _
  ring

variable [CharZero K] {n}

lemma avg_const (hn : n ≠ 0) (c : K) : avg n (fun _ => c) = c := by
  have hn' : (n : K) ≠ 0 := Nat.cast_ne_zero.mpr hn
  rw [avg, sum_const, card_range, nsmul_eq_mul, mul_div_cancel_left₀ c hn']

lemma cov_const (hn : n ≠ 0) (c : K) : cov n f (fun _ => c) = 0 := by
  simp [cov, avg_const hn]

variable {f g}

lemma sum_off_avg (hn : n ≠ 0) : ∑ i ∈ range n, (f i - avg n f) = 0 := by
  have hn' : (n : K) ≠ 0 := Nat.cast_ne_zero.mpr hn
  rw [sum_sub_distrib, sum_const, card_range, nsmul_eq_mul, avg, mul_div_cancel₀ _ hn', sub_self]

end Bilinear

section Noise

variable [LinearOrder K] [IsStrictOrderedRing K] {n : ℕ} (f g : ℕ → K)

lemma cov_self_nonneg : 0 ≤ cov n f f := sum_nonneg fun _ _ => mul_self_nonneg _

lemma cov_sq_le : cov n f g ^ 2 ≤ cov n f f * cov n g g := by
  have h := sum_mul_sq_le_sq_mul_sq (range n) (fun i => f i - avg n f) (fun i => g i - avg n g)
  simpa only [cov, sq] using h

variable {f g}

lemma cov_self_le (hn : n ≠ 0) {c δ : K} (h : ∀ i < n, |f i - c| ≤ δ) : cov n f f ≤ n * δ ^ 2 := by
  have hsplit : ∑ i ∈ range n, (f i - c) ^ 2 = cov n f f + n * (avg n f - c) ^ 2 := by
    have hcross : ∑ i ∈ range n, 2 * (avg n f - c) * (f i - avg n f) = 0 := by
      rw [← mul_sum, sum_off_avg hn, mul_zero]
    calc ∑ i ∈ range n, (f i - c) ^ 2
        = ∑ i ∈ range n, ((f i - avg n f) * (f i - avg n f) + 2 * (avg n f - c) * (f i - avg n f) +
            (avg n f - c) ^ 2) := by
          apply sum_congr rfl
          intro i _
          ring
      _ = cov n f f + n * (avg n f - c) ^ 2 := by
          rw [sum_add_distrib, sum_add_distrib, hcross, add_zero, sum_const, card_range, nsmul_eq_mul, cov]
  have hbound : ∑ i ∈ range n, (f i - c) ^ 2 ≤ n * δ ^ 2 := by
    calc ∑ i ∈ range n, (f i - c) ^ 2
        ≤ ∑ _i ∈ range n, δ ^ 2 := by
          apply sum_le_sum
          intro i hi
          have hi' := h i (mem_range.mp hi)
          exact sq_le_sq' (neg_le_of_abs_le hi') (le_of_abs_le hi')
      _ = n * δ ^ 2 := by rw [sum_const, card_range, nsmul_eq_mul]
  have hsq : 0 ≤ (n : K) * (avg n f - c) ^ 2 := mul_nonneg n.cast_nonneg (sq_nonneg _)
  linarith

end Noise

section Line

variable [LinearOrder K] [IsStrictOrderedRing K] {n : ℕ} {a m ρ : K} {d : ℕ → K}

def line (a m : K) (d : ℕ → K) (i : ℕ) : K := a + (m * i + d i)

lemma cov_line (hn : n ≠ 0) (f : ℕ → K) : cov n f (line a m d) = m * cov n f Nat.cast + cov n f d := by
  have hline : line a m d = fun i => (fun _ => a) i + (fun i : ℕ => (fun i : ℕ => m * (i : K)) i + d i) i := rfl
  rw [hline, cov_add, cov_const f hn, cov_add, cov_mul, zero_add]

lemma line_fit (hn : n ≠ 0) (hm : 0 ≤ m) (hρ : 0 ≤ ρ)
    (hd : cov n d d ≤ ρ ^ 2 * (m ^ 2 * cov n (Nat.cast : ℕ → K) Nat.cast)) :
    |cov n Nat.cast (line a m d) - m * cov n (Nat.cast : ℕ → K) Nat.cast| ≤
      ρ * (m * cov n (Nat.cast : ℕ → K) Nat.cast) := by
  have htt := cov_self_nonneg (n := n) (Nat.cast : ℕ → K)
  rw [cov_line hn, add_sub_cancel_left]
  apply abs_le_of_sq_le_sq _ (by positivity)
  calc cov n Nat.cast d ^ 2
      ≤ cov n (Nat.cast : ℕ → K) Nat.cast * cov n d d := cov_sq_le _ _
    _ ≤ cov n (Nat.cast : ℕ → K) Nat.cast * (ρ ^ 2 * (m ^ 2 * cov n (Nat.cast : ℕ → K) Nat.cast)) :=
        mul_le_mul_of_nonneg_left hd htt
    _ = (ρ * (m * cov n (Nat.cast : ℕ → K) Nat.cast)) ^ 2 := by ring

lemma line_rises (hn : n ≠ 0) (hm : 0 ≤ m) (hρ : 0 ≤ ρ) (hone : ρ ≤ 1)
    (hd : cov n d d ≤ ρ ^ 2 * (m ^ 2 * cov n (Nat.cast : ℕ → K) Nat.cast)) : 0 ≤ cov n Nat.cast (line a m d) := by
  have hclimb : 0 ≤ m * cov n (Nat.cast : ℕ → K) Nat.cast := mul_nonneg hm (cov_self_nonneg _)
  have hshare := mul_le_of_le_one_left hclimb hone
  linarith [neg_le_of_abs_le (line_fit (a := a) hn hm hρ hd)]

lemma line_trend (hn : n ≠ 0) (hm : 0 ≤ m) (hρ : 0 ≤ ρ) (hsmall : ρ ≤ 3 / 10)
    (hd : cov n d d ≤ ρ ^ 2 * (m ^ 2 * cov n (Nat.cast : ℕ → K) Nat.cast)) :
    cov n (Nat.cast : ℕ → K) Nat.cast * cov n (line a m d) (line a m d) ≤ 4 * cov n Nat.cast (line a m d) ^ 2 := by
  have htt := cov_self_nonneg (n := n) (Nat.cast : ℕ → K)
  have hte := neg_le_of_abs_le (line_fit (a := a) hn hm hρ hd)
  have hdd := mul_le_mul_of_nonneg_left hd htt
  have hself : cov n (line a m d) (line a m d) =
      m ^ 2 * cov n (Nat.cast : ℕ → K) Nat.cast + 2 * m * cov n Nat.cast d + cov n d d := by
    rw [cov_line hn, cov_comm n (line a m d), cov_line hn, cov_comm n (line a m d), cov_line hn, cov_comm n d]
    ring
  rw [cov_line hn] at hte
  rw [hself, cov_line hn]
  generalize cov n (Nat.cast : ℕ → K) Nat.cast = tt at *
  generalize cov n Nat.cast d = te at *
  generalize cov n d d = dd at *
  have hM : 0 ≤ m * tt := mul_nonneg hm htt
  have hcross : -(3 / 10 * (m * tt) ^ 2) ≤ m * tt * te := by
    have hshare : ρ * (m * tt) ≤ 3 / 10 * (m * tt) := mul_le_mul_of_nonneg_right hsmall hM
    have hmul := mul_le_mul_of_nonneg_left (show -(3 / 10 * (m * tt)) ≤ te by linarith) hM
    linarith
  have hnoise : tt * dd ≤ 9 / 100 * (m * tt) ^ 2 := by
    have hsq : ρ ^ 2 ≤ 9 / 100 := by nlinarith
    have hmul := mul_le_mul_of_nonneg_right hsq (sq_nonneg (m * tt))
    linarith
  linarith [sq_nonneg (m * tt), sq_nonneg te]

end Line

end CausalEngine.Foundations
