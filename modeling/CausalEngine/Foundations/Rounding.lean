import Mathlib.Data.Rat.Floor
import Mathlib.Tactic

/-! Rounding of rationals to a number of decimals, ties to the even neighbour, which never crosses a number that has
at most as many decimals; and square roots to twelve decimals, rounded down. -/

namespace CausalEngine.Foundations

def roundHalfEven (x : ℚ) : ℤ :=
  if x - ⌊x⌋ < 1 / 2 then ⌊x⌋
  else if 1 / 2 < x - ⌊x⌋ then ⌊x⌋ + 1
  else if Even ⌊x⌋ then ⌊x⌋ else ⌊x⌋ + 1

def roundTo (n : ℕ) (x : ℚ) : ℚ := roundHalfEven (x * 10 ^ n) / 10 ^ n

lemma le_roundHalfEven {x : ℚ} {k : ℤ} (h : (k : ℚ) ≤ x) : k ≤ roundHalfEven x := by
  have hf : k ≤ ⌊x⌋ := Int.le_floor.mpr h
  unfold roundHalfEven
  split_ifs <;> omega

lemma roundHalfEven_le {x : ℚ} {k : ℤ} (h : x ≤ k) : roundHalfEven x ≤ k := by
  have hf : ⌊x⌋ ≤ k := by exact_mod_cast (Int.floor_le x).trans h
  rcases hf.lt_or_eq with hlt | heq
  · unfold roundHalfEven
    split_ifs <;> omega
  · have hx : x = ⌊x⌋ := le_antisymm (by rw [heq]; exact h) (Int.floor_le x)
    have hd : x - ⌊x⌋ < 1 / 2 := by rw [← hx]; norm_num
    rw [roundHalfEven, if_pos hd]
    exact hf

lemma roundHalfEven_mono {x y : ℚ} (h : x ≤ y) : roundHalfEven x ≤ roundHalfEven y := by
  rcases (Int.floor_mono h).lt_or_eq with hlt | heq
  · have hx : roundHalfEven x ≤ ⌊x⌋ + 1 := roundHalfEven_le (by exact_mod_cast (Int.lt_floor_add_one x).le)
    have hy : ⌊y⌋ ≤ roundHalfEven y := le_roundHalfEven (Int.floor_le y)
    omega
  · unfold roundHalfEven
    rw [← heq]
    split_ifs <;> first | omega | linarith

lemma roundTo_mono (n : ℕ) {x y : ℚ} (h : x ≤ y) : roundTo n x ≤ roundTo n y := by
  have hp : (0 : ℚ) < 10 ^ n := by positivity
  rw [roundTo, roundTo, div_le_div_iff_of_pos_right hp]
  exact_mod_cast roundHalfEven_mono (mul_le_mul_of_nonneg_right h hp.le)

lemma le_roundTo {n : ℕ} {x : ℚ} (k : ℤ) (h : (k : ℚ) / 10 ^ n ≤ x) : (k : ℚ) / 10 ^ n ≤ roundTo n x := by
  have hp : (0 : ℚ) < 10 ^ n := by positivity
  rw [roundTo, div_le_div_iff_of_pos_right hp]
  exact_mod_cast le_roundHalfEven ((div_le_iff₀ hp).mp h)

lemma roundTo_le {n : ℕ} {x : ℚ} (k : ℤ) (h : x ≤ (k : ℚ) / 10 ^ n) : roundTo n x ≤ (k : ℚ) / 10 ^ n := by
  have hp : (0 : ℚ) < 10 ^ n := by positivity
  rw [roundTo, div_le_div_iff_of_pos_right hp]
  exact_mod_cast roundHalfEven_le ((le_div_iff₀ hp).mp h)

lemma abs_roundTo_le_one {n : ℕ} {x : ℚ} (h : |x| ≤ 1) : |roundTo n x| ≤ 1 := by
  obtain ⟨hl, hu⟩ := abs_le.mp h
  have hp : (10 : ℚ) ^ n ≠ 0 := by positivity
  have hone : ((10 ^ n : ℤ) : ℚ) / 10 ^ n = 1 := by push_cast; exact div_self hp
  have hneg : ((-10 ^ n : ℤ) : ℚ) / 10 ^ n = -1 := by push_cast; rw [neg_div, div_self hp]
  apply abs_le.mpr
  constructor
  · rw [← hneg] at hl ⊢
    exact le_roundTo _ hl
  · rw [← hone] at hu ⊢
    exact roundTo_le _ hu

example : roundTo 3 (1 / 3) = 333 / 1000 ∧ roundTo 1 (1 / 4) = 2 / 10 := by decide +kernel

section Roots

/-- The root of a number below `4 ^ k`, two binary digits of it at a time. -/
def isqrt : ℕ → ℕ → ℕ
  | 0, _ => 0
  | k + 1, n =>
    let r := 2 * isqrt k (n / 4)
    if (r + 1) * (r + 1) ≤ n then r + 1 else r

def sqrtDown (q : ℚ) : ℚ := isqrt 128 ⌊q * 10 ^ 24⌋.toNat / 10 ^ 12

lemma isqrt_sq_le (k n : ℕ) : isqrt k n * isqrt k n ≤ n := by
  induction k generalizing n with
  | zero => exact Nat.zero_le n
  | succ k ih =>
    have hquarter := ih (n / 4)
    simp only [isqrt]
    split_ifs with h
    · exact h
    · calc 2 * isqrt k (n / 4) * (2 * isqrt k (n / 4)) = 4 * (isqrt k (n / 4) * isqrt k (n / 4)) := by ring
        _ ≤ n := by omega

lemma lt_isqrt_succ_sq {k n : ℕ} (hn : n < 4 ^ k) : n < (isqrt k n + 1) * (isqrt k n + 1) := by
  induction k generalizing n with
  | zero =>
    have hzero : n = 0 := by simpa using hn
    simp [hzero, isqrt]
  | succ k ih =>
    have hquarter := ih (show n / 4 < 4 ^ k by rw [pow_succ] at hn; omega)
    simp only [isqrt]
    split_ifs with h
    · calc n < 4 * ((isqrt k (n / 4) + 1) * (isqrt k (n / 4) + 1)) := by omega
        _ = (2 * isqrt k (n / 4) + 1 + 1) * (2 * isqrt k (n / 4) + 1 + 1) := by ring
    · exact not_le.mp h

lemma isqrt_lt_iff {k n m : ℕ} (hn : n < 4 ^ k) : isqrt k n < m ↔ n < m * m := by
  constructor
  · intro h
    exact (lt_isqrt_succ_sq hn).trans_le (Nat.mul_le_mul h h)
  · intro h
    by_contra hle
    have hsq := (Nat.mul_le_mul (not_lt.mp hle) (not_lt.mp hle)).trans (isqrt_sq_le k n)
    exact absurd h (not_lt.mpr hsq)

lemma sqrtDown_nonneg (q : ℚ) : 0 ≤ sqrtDown q := by
  rw [sqrtDown]
  positivity

lemma sqrtDown_lt_half {q : ℚ} (h : q ≤ 1) : sqrtDown q < 1 / 2 ↔ q < 1 / 4 := by
  have hfloor : ⌊q * 10 ^ 24⌋ ≤ 10 ^ 24 := Int.floor_le_iff.mpr (by push_cast; linarith)
  have hsmall : ⌊q * 10 ^ 24⌋.toNat < 4 ^ 128 := by
    have hbound : (10 : ℤ) ^ 24 < 4 ^ 128 := by norm_num
    omega
  have hroot : sqrtDown q < 1 / 2 ↔ isqrt 128 ⌊q * 10 ^ 24⌋.toNat < 5 * 10 ^ 11 := by
    rw [sqrtDown, div_lt_iff₀ (by positivity)]
    norm_num
  have hcell : ⌊q * 10 ^ 24⌋ < 25 * 10 ^ 22 ↔ q < 1 / 4 := by
    rw [Int.floor_lt]
    push_cast
    constructor <;> intro hlt <;> linarith
  rw [hroot, isqrt_lt_iff hsmall, ← hcell]
  omega

end Roots

end CausalEngine.Foundations
